import ChatServer.Db.DbPool

/-!
# The pool's counter

Every connection and every reserved slot of `DbPool` is in one place: in the
queue, with a thread that holds the connection or gives it back, or with a
`borrow` that is outside the lock. `total_connections_` counts them
(`Balanced`). Every critical section of a thread keeps the balance (`Lands`), and
`pool_accounting` says it of every run.
-/

namespace ChatServer.Db

open Base

/-! ## Slots -/

/-- The thread has a `PooledConnection` or is in its destructor. -/
def Position.held : Position → Bool
  | .holding _ _ | .returning _ _ => true
  | _ => false

/-- A `borrow` outside the lock that has popped a connection, and not given its
slot back, or has reserved a slot. -/
def Position.outside : Position → Bool
  | .popped _ | .expired | .pinged _ _ | .connecting | .connected _ => true
  | _ => false

/-- The call is over and left nothing behind. -/
def Position.ended : Position → Bool
  | .refused _ | .finished => true
  | _ => false

/-- The slots a thread occupies. -/
def Position.slots (p : Position) : ℕ := if p.held || p.outside then 1 else 0

theorem Position.slots_eq (p : Position) :
    p.slots = (if p.held then 1 else 0) + if p.outside then 1 else 0 := by
  cases p <;> rfl

theorem Position.slots_of_ended {p : Position} (h : p.ended = true) : p.slots = 0 := by
  cases p <;> first | rfl | cases h

namespace DbPool

/-- The slots of all threads. -/
def occupied (s : DbPool) : ℕ := load (fun c : Client => c.pos.slots) s.clients

/-- Threads with a `PooledConnection`, or returning one. -/
def held (s : DbPool) : ℕ := s.clients.countP fun c => c.pos.held

/-- Calls of `borrow` outside the lock with a popped connection or a reserved
slot. -/
def outside (s : DbPool) : ℕ := s.clients.countP fun c => c.pos.outside

theorem occupied_eq (s : DbPool) : s.occupied = s.held + s.outside := by
  unfold occupied held outside
  induction s.clients with
  | nil => rfl
  | cons c cs ih =>
    rw [load_cons, ih, Position.slots_eq, List.countP_cons, List.countP_cons]
    omega

/-! ## The balance -/

/-- The counter counts the queue and `n` slots elsewhere, within the limit; it
never went below zero, and the queue of a stopped pool is empty. -/
structure Balanced (config : DbPoolConfig) (s : DbPool) (n : ℕ) : Prop where
  total : s.totalConnections.toNat = s.idleConnections.length + n
  bound : s.totalConnections ≤ config.maxConnections
  stopped : s.stopping = true → s.idleConnections = []
  exact : s.wrapped = false

/-- A critical section of thread `i` keeps the balance, where `n` slots belong to
the other threads. -/
def Lands (config : DbPoolConfig) (s : DbPool) (i n : ℕ) (t : DbPool) : Prop :=
  ∃ c, t.clients = s.clients.set i c ∧ Balanced config t (c.pos.slots + n)

variable {config : DbPoolConfig} {s t : DbPool} {i n : ℕ} {c : Client}

/-- A slot is given back. -/
theorem Balanced.subtract (h : Balanced config s (1 + n)) : Balanced config (s.subtract 1) n := by
  have htotal := h.total
  have hone : (1 : UInt64) ≤ s.totalConnections := by
    rw [UInt64.le_iff_toNat_le, htotal]
    show 1 ≤ _
    omega
  have hsub : (s.totalConnections - 1).toNat = s.totalConnections.toNat - 1 :=
    UInt64.toNat_sub_of_le _ _ hone
  refine ⟨?_, ?_, h.stopped, ?_⟩
  · show (s.totalConnections - 1).toNat = s.idleConnections.length + n
    omega
  · have hbound := UInt64.le_iff_toNat_le.mp h.bound
    rw [UInt64.le_iff_toNat_le]
    show (s.totalConnections - 1).toNat ≤ _
    omega
  · have hno : ¬ s.totalConnections < 1 := UInt64.not_lt.mpr hone
    simp [DbPool.subtract, h.exact, hno]

/-- A connection leaves the queue. -/
theorem Balanced.pop {idle : IdleConnection} {rest : List IdleConnection}
    (h : Balanced config s n) (hidle : s.idleConnections = idle :: rest) :
    Balanced config { s with idleConnections := rest } (1 + n) := by
  have htotal := h.total
  refine ⟨?_, h.bound, fun hstop => ?_, h.exact⟩
  · rw [hidle, List.length_cons] at htotal
    show s.totalConnections.toNat = rest.length + (1 + n)
    omega
  · have hempty := h.stopped hstop
    rw [hidle] at hempty
    cases hempty

/-- A connection joins the queue of a running pool. -/
theorem Balanced.push (h : Balanced config s (1 + n)) (idle : IdleConnection)
    (hrun : s.stopping = false) :
    Balanced config { s with idleConnections := s.idleConnections ++ [idle] } n := by
  have htotal := h.total
  refine ⟨?_, h.bound, fun hstop => ?_, h.exact⟩
  · show s.totalConnections.toNat = (s.idleConnections ++ [idle]).length + n
    rw [List.length_append, List.length_singleton]
    omega
  · have hstop : s.stopping = true := hstop
    rw [hrun] at hstop
    cases hstop

/-- A slot is reserved below the limit. -/
theorem Balanced.reserve (h : Balanced config s n)
    (hroom : s.totalConnections < config.maxConnections) :
    Balanced config { s with totalConnections := s.totalConnections + 1 } (1 + n) := by
  have htotal := h.total
  have hlt := UInt64.lt_iff_toNat_lt.mp hroom
  have hmax := config.maxConnections.toNat_lt
  -- below the limit there is room in 64 bits
  have hadd : (s.totalConnections + 1).toNat = s.totalConnections.toNat + 1 := by
    rw [UInt64.toNat_add]
    exact Nat.mod_eq_of_lt (show s.totalConnections.toNat + 1 < 2 ^ 64 by omega)
  refine ⟨?_, ?_, h.stopped, h.exact⟩
  · show (s.totalConnections + 1).toNat = s.idleConnections.length + (1 + n)
    omega
  · rw [UInt64.le_iff_toNat_le]
    show (s.totalConnections + 1).toNat ≤ _
    omega

/-- `stop` takes the queue out of the count. -/
theorem Balanced.stop (h : Balanced config s n) : Balanced config s.stop n := by
  unfold DbPool.stop
  split
  · exact h
  · have htotal := h.total
    have hmax := s.totalConnections.toNat_lt
    have hlen : (UInt64.ofNat s.idleConnections.length).toNat = s.idleConnections.length :=
      UInt64.toNat_ofNat_of_lt' (show s.idleConnections.length < 2 ^ 64 by omega)
    have hle : UInt64.ofNat s.idleConnections.length ≤ s.totalConnections := by
      rw [UInt64.le_iff_toNat_le, hlen]
      omega
    have hsub := UInt64.toNat_sub_of_le _ _ hle
    refine ⟨?_, ?_, fun _ => rfl, ?_⟩
    · show (s.totalConnections - UInt64.ofNat s.idleConnections.length).toNat = 0 + n
      omega
    · have hbound := UInt64.le_iff_toNat_le.mp h.bound
      rw [UInt64.le_iff_toNat_le]
      show (s.totalConnections - UInt64.ofNat s.idleConnections.length).toNat ≤ _
      omega
    · have hno : ¬ s.totalConnections < UInt64.ofNat s.idleConnections.length :=
        UInt64.not_lt.mpr hle
      simp [DbPool.subtract, h.exact, hno]

/-! ## The steps of a thread -/

/-- The thread goes to a position with as many slots as it has. -/
theorem Balanced.goto {p : Position} {m : ℕ} (h : Balanced config s (m + n)) (hp : p.slots = m) :
    Lands config s i n (s.goto i c p) := by
  subst hp
  exact ⟨_, rfl, h.total, h.bound, h.stopped, h.exact⟩

/-- It goes to a position without a slot. -/
theorem Balanced.leave {p : Position} (h : Balanced config s n) (hp : p.slots = 0) :
    Lands config s i n (s.goto i c p) :=
  Balanced.goto ((Nat.zero_add n).symm ▸ h) hp

theorem Balanced.round (h : Balanced config s n) : Lands config s i n (s.round config i c) := by
  unfold DbPool.round
  split
  · exact h.leave rfl
  · split
    · exact h.leave rfl
    · split
      next idle rest hidle => exact (h.pop hidle).goto rfl
      next hidle =>
        split
        next hroom => exact (h.reserve hroom).goto rfl
        next => exact h.leave rfl

theorem Balanced.wake {timedOut : Bool} (h : Balanced config s n)
    (hwake : s.wake config i c timedOut = some t) : Lands config s i n t := by
  simp only [DbPool.wake] at hwake
  split at hwake
  · cases hwake
  · split at hwake
    · obtain rfl := Option.some.inj hwake
      exact h.leave rfl
    · split at hwake
      · obtain rfl := Option.some.inj hwake
        exact h.leave rfl
      · obtain rfl := Option.some.inj hwake
        exact h.round

/-- What a thread does next. -/
theorem Balanced.advance {env : PoolEnv} (h : Balanced config s (c.pos.slots + n))
    (hstep : s.advance config i c env = some t) : Lands config s i n t := by
  obtain ⟨pos, checked⟩ := c
  cases pos with
  | refused | finished => cases hstep
  | waiting => exact Balanced.wake (Nat.zero_add n ▸ h) hstep
  | entering | closing =>
    cases hstep
    exact Balanced.round (Nat.zero_add n ▸ h)
  | expired =>
    cases hstep
    exact h.subtract.round
  | popped idle =>
    cases hstep
    split
    · exact h.goto rfl
    · exact h.goto rfl
  | pinged idle healthy =>
    cases hstep
    unfold DbPool.afterPing
    split
    · exact h.subtract.leave rfl
    · split
      · exact h.goto rfl
      · exact h.subtract.leave rfl
  | connecting =>
    cases hstep
    exact h.goto rfl
  | connected failure =>
    cases hstep
    unfold DbPool.afterConnect
    split
    · exact h.subtract.leave rfl
    · split
      · exact h.goto rfl
      · exact h.subtract.leave rfl
  | holding createTime reusable =>
    cases hstep
    exact h.goto rfl
  | returning createTime healthy =>
    cases hstep
    unfold DbPool.takeBack
    split
    · exact h.subtract.leave rfl
    next hno =>
      simp only [Bool.or_eq_true, not_or, Bool.not_eq_true] at hno
      exact (h.push _ hno.1).leave rfl

theorem Balanced.markBad (h : Balanced config s (c.pos.slots + n))
    (hstep : s.markBad i c = some t) : Lands config s i n t := by
  obtain ⟨pos, checked⟩ := c
  cases pos with
  | holding createTime reusable =>
    cases hstep
    exact h.goto rfl
  | _ => cases hstep

/-! ## Runs -/

/-- A critical section of one thread, seen from the whole pool. -/
theorem balanced_of_lands (h : Balanced config s s.occupied) (hc : s.clients[i]? = some c)
    (hlands : ∀ n, Balanced config s (c.pos.slots + n) → Lands config s i n t) :
    Balanced config t t.occupied := by
  obtain ⟨rest, hfocus, -, hset⟩ := load_focus (fun c : Client => c.pos.slots) hc
  have hrest : s.occupied = c.pos.slots + rest := hfocus
  rw [hrest] at h
  obtain ⟨d, hclients, hd⟩ := hlands rest h
  have hocc : t.occupied = d.pos.slots + rest := by
    unfold occupied
    rw [hclients]
    exact hset d
  rwa [hocc]

/-- `init` makes as many connections as it is asked for. -/
theorem precreate_length {attempt : Nat → Nat → Attempt} {now : Nat → Int}
    {made : List IdleConnection} (h : precreate config attempt now n = .ok made) :
    made.length = n := by
  induction n generalizing made with
  | zero =>
    cases h
    rfl
  | succ n ih =>
    unfold precreate at h
    split at h
    · cases h
    next hmade =>
      split at h
      · cases h
      · cases h
        rw [List.length_append, List.length_singleton, ih hmade]

theorem balanced_of_init {db : DbConfig} {attempt : Nat → Nat → Attempt} {now : Nat → Int}
    (h : DbPool.init db config attempt now {} = .ok s) : Balanced config s s.occupied := by
  unfold DbPool.init at h
  split_ifs at h with _ hmin
  obtain ⟨made, hmade, rfl⟩ : ∃ made,
      precreate config attempt now config.minConnections.toNat = .ok made ∧
        (DbPool.adopt {} made) = s := by
    cases hmade : precreate config attempt now config.minConnections.toNat with
    | error f => rw [hmade] at h; cases h
    | ok made =>
      rw [hmade] at h
      exact ⟨made, rfl, Except.ok.inj h⟩
  have hlen := precreate_length hmade
  have hofNat : UInt64.ofNat made.length = config.minConnections := by
    rw [hlen, UInt64.ofNat_toNat]
  have htotal : (DbPool.adopt {} made).totalConnections = config.minConnections := by
    show 0 + UInt64.ofNat made.length = _
    rw [UInt64.zero_add, hofNat]
  refine ⟨?_, ?_, fun hstop => ?_, rfl⟩
  · rw [htotal, ← hlen]
    rfl
  · rw [htotal]
    exact UInt64.not_lt.mp hmin
  · cases hstop

theorem inductive_balanced (db : DbConfig) (config : DbPoolConfig) :
    (lts db config).Inductive (fun _ _ => True) fun s => Balanced config s s.occupied where
  init s := by
    rintro ⟨attempt, now, hinit⟩
    exact balanced_of_init hinit
  step s l s' h _ hstep := by
    cases l with
    | borrow =>
      obtain rfl := Option.some.inj hstep
      have hocc : occupied { s with clients := s.clients ++ [{}] } = s.occupied := by
        simp [occupied, Position.slots, Position.held, Position.outside]
      rw [hocc]
      exact ⟨h.total, h.bound, h.stopped, h.exact⟩
    | advance i env =>
      obtain ⟨c, hc, hstep⟩ := Option.bind_eq_some_iff.mp hstep
      exact balanced_of_lands h hc fun n hn => hn.advance hstep
    | markBad i =>
      obtain ⟨c, hc, hstep⟩ := Option.bind_eq_some_iff.mp hstep
      exact balanced_of_lands h hc fun n hn => hn.markBad hstep
    | stop =>
      obtain rfl := Option.some.inj hstep
      have hocc : s.stop.occupied = s.occupied := by
        unfold DbPool.stop
        split <;> rfl
      rw [hocc]
      exact h.stop

/-- In every run after a successful `init`: the counter is the number of idle
connections, of connections held or being returned, and of `borrow` calls outside
the lock with a popped connection or a reserved slot; it stays within
`max_connections` and never wraps; and when the pool is stopped and every call
has ended, it is zero and the queue is empty. -/
theorem pool_accounting {db : DbConfig} (hs : (lts db config).Reachable s) :
    s.totalConnections.toNat = s.idleConnections.length + s.held + s.outside ∧
      s.totalConnections ≤ config.maxConnections ∧ s.wrapped = false ∧
      (s.stopping = true → (∀ c ∈ s.clients, c.pos.ended = true) →
        s.totalConnections = 0 ∧ s.idleConnections = []) := by
  have h := (inductive_balanced db config).invariant hs
  refine ⟨?_, h.bound, h.exact, fun hstop hended => ?_⟩
  · rw [h.total, occupied_eq, Nat.add_assoc]
  · have hempty := h.stopped hstop
    have hnone : s.occupied = 0 :=
      load_eq_zero _ fun c hc => Position.slots_of_ended (hended c hc)
    have hzero := h.total
    rw [hempty, hnone] at hzero
    exact ⟨UInt64.toNat_inj.mp hzero, hempty⟩

/-- A pool of one connection that may grow to two. -/
def twoSlots : DbPoolConfig := { maxConnections := 2 }

def localDb : DbConfig := { username := str "chat", database := str "chat" }

/-- Two calls take the idle connection and a slot, and one of them has its
connection when the pool is stopped. -/
def stopWhileBorrowing : List PoolLabel :=
  [.borrow, .borrow, .advance 0 {}, .advance 1 {}, .advance 0 {}, .advance 0 {}, .stop]

theorem pool_accounting_stopped :
    ∃ s : DbPool, s.stopping = true ∧ s.held = 1 ∧ s.outside = 1 ∧
      s.totalConnections.toNat = s.idleConnections.length + s.held + s.outside ∧
      s.totalConnections ≤ twoSlots.maxConnections ∧ s.wrapped = false := by
  obtain ⟨s, hs, h⟩ := Lts.exists_reach_of_run (M := lts localDb twoSlots)
    (s := DbPool.adopt {} [⟨0, 0⟩])
    (fun s => s.stopping && decide (s.held = 1) && decide (s.outside = 1)) stopWhileBorrowing
    ⟨fun _ _ => .connected, fun _ => 0, rfl⟩ Lts.runOk_true (by decide +kernel)
  simp only [Bool.and_eq_true, decide_eq_true_eq] at h
  obtain ⟨htotal, hbound, hexact, -⟩ := pool_accounting hs
  exact ⟨s, h.1.1, h.1.2, h.2, htotal, hbound, hexact⟩

end DbPool
end ChatServer.Db
