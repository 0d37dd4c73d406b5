import ChatServer.Base.Load
import ChatServer.Base.Lts
import ChatServer.Common.Types
import Mathlib.Algebra.Group.Prod

/-!
# The Redis connection pool

`RedisPool` as a transition system: threads that borrow and give back
connections, `Init` and `Stop` at any time and in any order. A step is one
critical section, or `CreateConnected` outside the lock. `Init` is its critical
section; the connections it brings were made before, and if one could not be
made it changes nothing.

`Stop` sets `total_` to zero while connections are out, and `Borrow` does not
look at `stopping_` again after its unlocked connect. `redis_pool_accounting`
says that nothing else upsets the counter, `redis_pool_miscounts` what happens
when `Stop` or a second `Init` falls into the gap.
-/

namespace ChatServer.Redis

open Base

/-! ## The model -/

/-- `chat::RedisError`. -/
inductive RedisError where
  | none
  | invalidConfig
  | connectionUnavailable
  | authFailed
  | selectFailed
  | timeout
  | commandFailed
  | notFound
  deriving DecidableEq, Repr

structure RedisFailure where
  error : RedisError
  message : Bytes
  deriving DecidableEq, Repr

/-- What `CreateConnected` meets. -/
inductive Attempt where
  | noFactory
  | noConnection
  | refused (error : RedisError) (message : Bytes)
  | connected
  deriving DecidableEq, Repr

/-- `CreateConnected`; `none` is a connection. -/
def createConnected : Attempt → Option RedisFailure
  | .noFactory => some ⟨.connectionUnavailable, str "redis connection factory is null"⟩
  | .noConnection => some ⟨.connectionUnavailable, str "redis connection factory returned null"⟩
  | .refused error message => some ⟨error, message⟩
  | .connected => none

/-- Where a thread is between the start of its `Borrow` and the end of the
connection it got. -/
inductive Position where
  | entering
  /-- a slot is reserved; next `CreateConnected` -/
  | connecting
  /-- `CreateConnected` returned -/
  | connected (failure : Option RedisFailure)
  /-- in `condition_.wait_for` -/
  | waiting
  | holding (reusable : Bool)
  | refused (failure : RedisFailure)
  | finished
  deriving DecidableEq, Repr

/-- `total_` is a `std::size_t`; `wrapped` remembers that a decrement went below
zero. -/
structure RedisPool where
  idle : ℕ := 0
  total : UInt64 := 0
  initialized : Bool := false
  stopping : Bool := false
  clients : List Position := []
  wrapped : Bool := false
  deriving DecidableEq, Repr

namespace RedisPool

def goto (s : RedisPool) (i : Nat) (pos : Position) : RedisPool :=
  { s with clients := s.clients.set i pos }

/-- `--total_`. -/
def decrement (s : RedisPool) : RedisPool :=
  { s with total := s.total - 1, wrapped := s.wrapped || s.total = 0 }

/-- The critical section of `Init`. -/
def init (poolSize : UInt64) (s : RedisPool) : RedisPool :=
  { s with
    idle := s.idle + poolSize.toNat
    total := s.total + poolSize
    initialized := true
    stopping := false }

/-- One round of the loop of `Borrow`, up to the next unlock. -/
def round (poolSize : UInt64) (s : RedisPool) (i : Nat) : RedisPool :=
  if !s.initialized || s.stopping then
    s.goto i (.refused ⟨.connectionUnavailable, str "redis pool is unavailable"⟩)
  else
    match s.idle with
    | idle + 1 => { s with idle := idle }.goto i (.holding true)
    | 0 =>
      if s.total < poolSize then { s with total := s.total + 1 }.goto i .connecting
      else s.goto i .waiting

/-- The critical section after `CreateConnected`: `stopping_` is not looked at. -/
def afterConnect (s : RedisPool) (i : Nat) : Option RedisFailure → RedisPool
  | none => s.goto i (.holding true)
  | some failure => s.decrement.goto i (.refused failure)

/-- The wait is over. -/
def wake (poolSize : UInt64) (s : RedisPool) (i : Nat) (timedOut : Bool) : Option RedisPool :=
  if s.stopping || 0 < s.idle || s.total < poolSize then some (s.round poolSize i)
  else if timedOut then
    some (s.goto i (.refused ⟨.timeout, str "borrow redis connection timeout"⟩))
  else none

/-- `Return`. -/
def giveBack (s : RedisPool) (i : Nat) (reusable isConnected : Bool) : RedisPool :=
  if !s.stopping && s.initialized && reusable && isConnected then
    { s with idle := s.idle + 1 }.goto i .finished
  else if 0 < s.total then s.decrement.goto i .finished
  else s.goto i .finished

/-- `Stop`. -/
def stop (s : RedisPool) : RedisPool :=
  { s with stopping := true, initialized := false, idle := 0, total := 0 }

/-- What the environment answers during a step. -/
structure Env where
  attempt : Attempt := .connected
  timedOut : Bool := false
  /-- `RedisConnection::IsConnected` -/
  isConnected : Bool := true
  deriving DecidableEq, Repr

/-- The next step of thread `i`. -/
def advance (poolSize : UInt64) (s : RedisPool) (i : Nat) (pos : Position) (env : Env) :
    Option RedisPool :=
  match pos with
  | .entering => some (s.round poolSize i)
  | .connecting => some (s.goto i (.connected (createConnected env.attempt)))
  | .connected failure => some (s.afterConnect i failure)
  | .waiting => s.wake poolSize i env.timedOut
  | .holding reusable => some (s.giveBack i reusable env.isConnected)
  | .refused _ => none
  | .finished => none

/-- `MarkBad`. -/
def markBad (s : RedisPool) (i : Nat) : Position → Option RedisPool
  | .holding _ => some (s.goto i (.holding false))
  | _ => none

inductive Label where
  | init
  | borrow
  | advance (i : Nat) (env : Env)
  | markBad (i : Nat)
  | stop
  deriving DecidableEq, Repr

def step (poolSize : UInt64) (s : RedisPool) : Label → Option RedisPool
  | .init => some (s.init poolSize)
  | .borrow => some { s with clients := s.clients ++ [.entering] }
  | .advance i env => s.clients[i]?.bind fun pos => s.advance poolSize i pos env
  | .markBad i => s.clients[i]?.bind fun pos => s.markBad i pos
  | .stop => some s.stop

def lts (poolSize : UInt64) : Lts RedisPool Label where
  Init s := s = {}
  step := step poolSize

end RedisPool

/-! ## Slots -/

/-- The connections lent to a thread, and the slots reserved for it. -/
def Position.share : Position → ℕ × ℕ
  | .holding _ => (1, 0)
  | .connecting | .connected _ => (0, 1)
  | _ => (0, 0)

/-- The thread has a connection of the pool. -/
def Position.lent (pos : Position) : Bool := pos.share.1 = 1

namespace RedisPool

/-- Connections lent out and slots reserved. -/
def shares (s : RedisPool) : ℕ × ℕ := load Position.share s.clients

def lent (s : RedisPool) : ℕ := s.shares.1

def reserved (s : RedisPool) : ℕ := s.shares.2

/-- When `Init` and `Stop` leave the counter right: `Init` on a pool that is not
running and has no connection out, `Stop` while no `Borrow` is connecting. -/
def Orderly (s : RedisPool) : Label → Prop
  | .init => s.initialized = false ∧ s.lent = 0 ∧ s.reserved = 0
  | .stop => s.reserved = 0
  | _ => True

instance (s : RedisPool) (l : Label) : Decidable (s.Orderly l) :=
  match l with
  | .init => inferInstanceAs (Decidable (_ ∧ _))
  | .stop => inferInstanceAs (Decidable (_ = _))
  | .borrow | .advance _ _ | .markBad _ => isTrue trivial

/-- The counter of a running pool counts the idle connections and the shares `n`
of the threads; a pool that is not running has counter zero, and nobody is
connecting. -/
structure Balanced (poolSize : UInt64) (s : RedisPool) (n : ℕ × ℕ) : Prop where
  total : s.initialized = true → s.total.toNat = s.idle + (n.1 + n.2)
  bound : s.initialized = true → s.total ≤ poolSize
  running : s.initialized = true → s.stopping = false
  down : s.initialized = false → s.total = 0 ∧ s.idle = 0 ∧ n.2 = 0
  exact : s.wrapped = false

/-- A step of thread `i` keeps the balance, where the other threads have the
shares `n`. -/
def Lands (poolSize : UInt64) (s : RedisPool) (i : ℕ) (n : ℕ × ℕ) (t : RedisPool) : Prop :=
  ∃ pos, t.clients = s.clients.set i pos ∧ Balanced poolSize t (pos.share + n)

variable {poolSize : UInt64} {s t : RedisPool} {i : ℕ} {n : ℕ × ℕ}

variable {pos : Position}

theorem Balanced.goto (h : Balanced poolSize s (pos.share + n)) :
    Lands poolSize s i n (s.goto i pos) :=
  ⟨pos, rfl, h.total, h.bound, h.running, h.down, h.exact⟩

/-- A thread without a share. -/
theorem Balanced.without (h : Balanced poolSize s n) : Balanced poolSize s ((0, 0) + n) := by
  have hnone : ((0, 0) : ℕ × ℕ) + n = n := zero_add n
  rwa [hnone]

/-- A counter that is not zero goes down by one. -/
theorem toNat_pred {a : UInt64} (h : a ≠ 0) : (a - 1).toNat = a.toNat - 1 := by
  have hone : (1 : UInt64) ≤ a := by
    rw [UInt64.le_iff_toNat_le]
    have hpos : a.toNat ≠ 0 := fun h0 => h (UInt64.toNat_inj.mp h0)
    show 1 ≤ a.toNat
    omega
  exact UInt64.toNat_sub_of_le _ _ hone

/-- A running pool gives up one of its connections or slots. -/
theorem Balanced.decrement {m : ℕ × ℕ} (h : Balanced poolSize s m) (hrun : s.initialized = true)
    (hm : m.1 + m.2 = n.1 + n.2 + 1) : Balanced poolSize s.decrement n := by
  have htotal := h.total hrun
  have hbound := UInt64.le_iff_toNat_le.mp (h.bound hrun)
  have hne : s.total ≠ 0 := by
    intro h0
    rw [h0] at htotal
    have : (0 : UInt64).toNat = 0 := rfl
    omega
  have hpred := toNat_pred hne
  refine ⟨fun _ => ?_, fun _ => ?_, h.running, fun hdown => ?_, ?_⟩
  · show (s.total - 1).toNat = s.idle + (n.1 + n.2)
    omega
  · rw [UInt64.le_iff_toNat_le]
    show (s.total - 1).toNat ≤ poolSize.toNat
    omega
  · have hdown : s.initialized = false := hdown
    rw [hrun] at hdown
    cases hdown
  · simp [RedisPool.decrement, h.exact, hne]

/-! ## The critical sections -/

theorem Balanced.round (h : Balanced poolSize s n) : Lands poolSize s i n (s.round poolSize i) := by
  unfold RedisPool.round
  split
  · exact Balanced.goto h.without
  next hup =>
    have hrun : s.initialized = true := by
      cases hi : s.initialized with
      | true => rfl
      | false => simp [hi] at hup
    have htotal := h.total hrun
    have hbound := UInt64.le_iff_toNat_le.mp (h.bound hrun)
    split
    next idle hidle =>
      refine Balanced.goto ⟨fun _ => ?_, h.bound, h.running, fun hdown => ?_, h.exact⟩
      · show s.total.toNat = idle + ((1 + n.1) + (0 + n.2))
        omega
      · have hdown : s.initialized = false := hdown
        rw [hrun] at hdown
        cases hdown
    next hidle =>
      split
      next hroom =>
        have hlt := UInt64.lt_iff_toNat_lt.mp hroom
        have hmax := poolSize.toNat_lt
        have hadd : (s.total + 1).toNat = s.total.toNat + 1 := by
          rw [UInt64.toNat_add]
          exact Nat.mod_eq_of_lt (show s.total.toNat + 1 < 2 ^ 64 by omega)
        refine Balanced.goto ⟨fun _ => ?_, fun _ => ?_, h.running, fun hdown => ?_, h.exact⟩
        · show (s.total + 1).toNat = s.idle + ((0 + n.1) + (1 + n.2))
          omega
        · rw [UInt64.le_iff_toNat_le]
          show (s.total + 1).toNat ≤ poolSize.toNat
          omega
        · have hdown : s.initialized = false := hdown
          rw [hrun] at hdown
          cases hdown
      next => exact Balanced.goto h.without

theorem Balanced.wake {timedOut : Bool} (h : Balanced poolSize s n)
    (hstep : s.wake poolSize i timedOut = some t) : Lands poolSize s i n t := by
  unfold RedisPool.wake at hstep
  split at hstep
  · obtain rfl := Option.some.inj hstep
    exact h.round
  · split at hstep
    · obtain rfl := Option.some.inj hstep
      exact Balanced.goto h.without
    · cases hstep

/-- Nobody is connecting to a pool that is not running. -/
theorem Balanced.initialized_of_reserved (h : Balanced poolSize s ((0, 1) + n)) :
    s.initialized = true := by
  cases hi : s.initialized with
  | true => rfl
  | false =>
    have hnone : 1 + n.2 = 0 := (h.down hi).2.2
    omega

theorem Balanced.afterConnect {failure : Option RedisFailure}
    (h : Balanced poolSize s ((0, 1) + n)) : Lands poolSize s i n (s.afterConnect i failure) := by
  have hrun := h.initialized_of_reserved
  have htotal : s.total.toNat = s.idle + ((0 + n.1) + (1 + n.2)) := h.total hrun
  cases failure with
  | none =>
    refine Balanced.goto ⟨fun _ => ?_, h.bound, h.running, fun hdown => ?_, h.exact⟩
    · show s.total.toNat = s.idle + ((1 + n.1) + (0 + n.2))
      omega
    · rw [hrun] at hdown
      cases hdown
  | some failure =>
    refine Balanced.goto (h.decrement hrun ?_)
    show 0 + n.1 + (1 + n.2) = 0 + n.1 + (0 + n.2) + 1
    omega

theorem Balanced.giveBack {reusable isConnected : Bool} (h : Balanced poolSize s ((1, 0) + n)) :
    Lands poolSize s i n (s.giveBack i reusable isConnected) := by
  rcases Bool.eq_false_or_eq_true s.initialized with hrun | hrun
  · have htotal : s.total.toNat = s.idle + ((1 + n.1) + (0 + n.2)) := h.total hrun
    unfold RedisPool.giveBack
    split
    · refine Balanced.goto ⟨fun _ => ?_, h.bound, h.running, fun hdown => ?_, h.exact⟩
      · show s.total.toNat = s.idle + 1 + ((0 + n.1) + (0 + n.2))
        omega
      · have hdown : s.initialized = false := hdown
        rw [hrun] at hdown
        cases hdown
    · have hpos : 0 < s.total := by
        rw [UInt64.lt_iff_toNat_lt, htotal]
        show 0 < _
        omega
      rw [if_pos hpos]
      refine Balanced.goto (h.decrement hrun ?_)
      show 1 + n.1 + (0 + n.2) = 0 + n.1 + (0 + n.2) + 1
      omega
  · -- not running: the counter is zero and stays so
    obtain ⟨hzero, hidle, hnone⟩ := h.down hrun
    have hno : ¬ 0 < s.total := by simp [hzero]
    have hup : s.initialized ≠ true := by simp [hrun]
    unfold RedisPool.giveBack
    rw [if_neg (by simp [hrun]), if_neg hno]
    exact Balanced.goto ⟨fun hi => absurd hi hup, fun hi => absurd hi hup, h.running,
      fun _ => ⟨hzero, hidle, hnone⟩, h.exact⟩

theorem Balanced.advance {env : Env} (h : Balanced poolSize s (pos.share + n))
    (hstep : s.advance poolSize i pos env = some t) : Lands poolSize s i n t := by
  have hnone : ((0, 0) : ℕ × ℕ) + n = n := zero_add n
  cases pos with
  | entering =>
    obtain rfl := Option.some.inj hstep
    exact Balanced.round (hnone ▸ h)
  | connecting =>
    obtain rfl := Option.some.inj hstep
    exact Balanced.goto h
  | connected failure =>
    obtain rfl := Option.some.inj hstep
    exact h.afterConnect
  | waiting => exact Balanced.wake (hnone ▸ h) hstep
  | holding reusable =>
    obtain rfl := Option.some.inj hstep
    exact h.giveBack
  | refused failure | finished => cases hstep

theorem Balanced.markBad (h : Balanced poolSize s (pos.share + n))
    (hstep : s.markBad i pos = some t) : Lands poolSize s i n t := by
  cases pos with
  | holding reusable =>
    obtain rfl := Option.some.inj hstep
    exact Balanced.goto h
  | _ => cases hstep

/-! ## Runs -/

/-- A step of one thread, seen from the whole pool. -/
theorem balanced_of_lands (h : Balanced poolSize s s.shares) (hc : s.clients[i]? = some pos)
    (hlands : ∀ n, Balanced poolSize s (pos.share + n) → Lands poolSize s i n t) :
    Balanced poolSize t t.shares := by
  obtain ⟨rest, hfocus, -, hset⟩ := load_focus Position.share hc
  have hrest : s.shares = pos.share + rest := hfocus
  rw [hrest] at h
  obtain ⟨pos', hclients, hbalanced⟩ := hlands rest h
  have hshares : t.shares = pos'.share + rest := by
    unfold shares
    rw [hclients]
    exact hset pos'
  rwa [hshares]

theorem Balanced.init (h : Balanced poolSize s s.shares) (hok : s.Orderly .init) :
    Balanced poolSize (s.init poolSize) (s.init poolSize).shares := by
  obtain ⟨hdown, hlent, hreserved⟩ := hok
  obtain ⟨hzero, hidle, -⟩ := h.down hdown
  have htotal : (s.init poolSize).total = poolSize := by
    show s.total + poolSize = poolSize
    rw [hzero, UInt64.zero_add]
  refine ⟨fun _ => ?_, fun _ => ?_, fun _ => rfl, fun hi => ?_, h.exact⟩
  · have hshares : (s.init poolSize).shares.1 + (s.init poolSize).shares.2 = 0 := by
      show s.lent + s.reserved = 0
      rw [hlent, hreserved]
    rw [htotal, hshares]
    show poolSize.toNat = s.idle + poolSize.toNat + 0
    omega
  · rw [htotal]
    exact UInt64.le_refl _
  · cases hi

theorem inductive_balanced (poolSize : UInt64) :
    (lts poolSize).Inductive Orderly fun s => Balanced poolSize s s.shares where
  init s := by
    rintro rfl
    have hup : ({} : RedisPool).initialized ≠ true := Bool.false_ne_true
    exact ⟨fun hi => absurd hi hup, fun hi => absurd hi hup, fun hi => absurd hi hup,
      fun _ => ⟨rfl, rfl, rfl⟩, rfl⟩
  step s l s' h hok hstep := by
    cases l with
    | init =>
      obtain rfl := Option.some.inj hstep
      exact h.init hok
    | borrow =>
      obtain rfl := Option.some.inj hstep
      have hshares : shares { s with clients := s.clients ++ [.entering] } = s.shares := by
        simp [shares, Position.share]
      rw [hshares]
      exact ⟨h.total, h.bound, h.running, h.down, h.exact⟩
    | advance i env =>
      obtain ⟨pos, hc, hstep⟩ := Option.bind_eq_some_iff.mp hstep
      exact balanced_of_lands h hc fun n hn => hn.advance hstep
    | markBad i =>
      obtain ⟨pos, hc, hstep⟩ := Option.bind_eq_some_iff.mp hstep
      exact balanced_of_lands h hc fun n hn => hn.markBad hstep
    | stop =>
      obtain rfl := Option.some.inj hstep
      have hup : s.stop.initialized ≠ true := Bool.false_ne_true
      exact ⟨fun hi => absurd hi hup, fun hi => absurd hi hup, fun hi => absurd hi hup,
        fun _ => ⟨rfl, rfl, hok⟩, h.exact⟩

/-! ## A stopped pool lends nothing -/

/-- Thread `i` moves, and has a connection afterwards only if it had one before. -/
def Declines (s : RedisPool) (i : ℕ) (pos : Position) (t : RedisPool) : Prop :=
  ∃ pos', t.clients = s.clients.set i pos' ∧ (pos'.lent = true → pos.lent = true)

theorem declines_round (hdown : s.initialized = false) : s.Declines i pos (s.round poolSize i) := by
  unfold RedisPool.round
  rw [if_pos (by simp [hdown])]
  exact ⟨_, rfl, fun h => nomatch h⟩

theorem declines_advance {env : Env} (hdown : s.initialized = false) (hpos : pos.share.2 = 0)
    (hstep : s.advance poolSize i pos env = some t) : s.Declines i pos t := by
  cases pos with
  | entering =>
    obtain rfl := Option.some.inj hstep
    exact declines_round hdown
  | connecting => cases hpos
  | connected failure => cases hpos
  | waiting =>
    unfold RedisPool.advance RedisPool.wake at hstep
    simp only at hstep
    split at hstep
    · obtain rfl := Option.some.inj hstep
      exact declines_round hdown
    · split at hstep
      · obtain rfl := Option.some.inj hstep
        exact ⟨_, rfl, fun h => nomatch h⟩
      · cases hstep
  | holding reusable =>
    obtain rfl := Option.some.inj hstep
    unfold RedisPool.giveBack
    split
    · exact ⟨_, rfl, fun _ => rfl⟩
    · split
      · exact ⟨_, rfl, fun _ => rfl⟩
      · exact ⟨_, rfl, fun _ => rfl⟩
  | refused failure | finished => cases hstep

theorem Declines.lent (h : s.Declines i pos t) (hc : s.clients[i]? = some pos) {j : ℕ}
    {after : Position} (hafter : t.clients[j]? = some after) (hlent : after.lent = true) :
    ∃ before, s.clients[j]? = some before ∧ before.lent = true := by
  obtain ⟨pos', hclients, hkeeps⟩ := h
  rw [hclients] at hafter
  by_cases hij : i = j
  · subst hij
    have hlt : i < s.clients.length := (List.getElem?_eq_some_iff.mp hc).1
    rw [List.getElem?_set_self hlt] at hafter
    obtain rfl := Option.some.inj hafter
    exact ⟨pos, hc, hkeeps hlent⟩
  · rw [List.getElem?_set_ne hij] at hafter
    exact ⟨after, hafter, hlent⟩

/-- No step hands a connection of a stopped pool to a thread. -/
theorem Balanced.lends_nothing (h : Balanced poolSize s s.shares) (hstop : s.stopping = true)
    {l : Label} (hstep : s.step poolSize l = some t) {j : ℕ} {after : Position}
    (hafter : t.clients[j]? = some after) (hlent : after.lent = true) :
    ∃ before, s.clients[j]? = some before ∧ before.lent = true := by
  have hdown : s.initialized = false := by
    cases hi : s.initialized with
    | false => rfl
    | true =>
      rw [h.running hi] at hstop
      cases hstop
  cases l with
  | init | stop =>
    obtain rfl := Option.some.inj hstep
    exact ⟨after, hafter, hlent⟩
  | borrow =>
    obtain rfl := Option.some.inj hstep
    have hold : (s.clients ++ [.entering])[j]? = some after := hafter
    by_cases hj : j < s.clients.length
    · rw [List.getElem?_append_left hj] at hold
      exact ⟨after, hold, hlent⟩
    · rw [List.getElem?_append_right (by omega)] at hold
      obtain rfl := List.mem_singleton.mp (List.mem_of_getElem? hold)
      cases hlent
  | advance i env =>
    obtain ⟨pos, hc, hstep⟩ := Option.bind_eq_some_iff.mp hstep
    obtain ⟨rest, hfocus, -, -⟩ := load_focus Position.share hc
    have hnone : pos.share.2 + rest.2 = 0 := by
      have hall := (h.down hdown).2.2
      rwa [show s.shares = pos.share + rest from hfocus] at hall
    exact (declines_advance hdown (by omega) hstep).lent hc hafter hlent
  | markBad i =>
    obtain ⟨pos, hc, hstep⟩ := Option.bind_eq_some_iff.mp hstep
    cases pos with
    | holding reusable =>
      obtain rfl := Option.some.inj hstep
      have hdeclines : s.Declines i (.holding reusable) (s.goto i (.holding false)) :=
        ⟨_, rfl, fun _ => rfl⟩
      exact hdeclines.lent hc hafter hlent
    | _ => cases hstep

/-! ## The guarantee -/

/-- In every run in which `Init` finds the pool down with nothing out and `Stop`
finds no `Borrow` connecting: the counter never wraps, a running pool counts its
idle and lent connections and its reserved slots and stays within `pool_size`,
and after `Stop` no thread gets a connection. -/
theorem redis_pool_accounting (hs : (lts poolSize).Reach Orderly s) :
    s.wrapped = false ∧
      (s.initialized = true → s.stopping = false →
        s.total.toNat = s.idle + s.lent + s.reserved ∧ s.total ≤ poolSize) ∧
      (s.stopping = true → ∀ l t, s.step poolSize l = some t →
        ∀ (j : ℕ) (after : Position), t.clients[j]? = some after → after.lent = true →
          ∃ before : Position, s.clients[j]? = some before ∧ before.lent = true) := by
  have h := (inductive_balanced poolSize).invariant hs
  refine ⟨h.exact, fun hup _ => ⟨?_, h.bound hup⟩, fun hstop l t hstep j after hafter hlent => ?_⟩
  · rw [h.total hup, ← Nat.add_assoc]
    rfl
  · exact h.lends_nothing hstop hstep hafter hlent

/-- A pool of one connection is started, its connection lent, spoilt and given
back; the next call reserves the free slot. -/
def reserveAgain : List Label :=
  [.init, .borrow, .advance 0 {}, .markBad 0, .advance 0 {}, .borrow, .advance 1 {}]

/-- The theorem after a stop in good order: the reserved slot became a connection
before. -/
theorem redis_pool_accounting_restarted :
    ∃ s : RedisPool, s.initialized = true ∧ s.stopping = false ∧ s.lent = 1 ∧
      s.wrapped = false ∧ s.total.toNat = s.idle + s.lent + s.reserved ∧ s.total ≤ 1 := by
  let labels : List Label := reserveAgain ++
    [.advance 1 {}, .advance 1 {}, .advance 1 {}, .stop, .init, .borrow, .advance 2 {}]
  have hok : (lts 1).RunOk Orderly {} labels := by decide +kernel
  obtain ⟨s, hs, h⟩ := Lts.exists_reach_of_run
    (fun s : RedisPool => s.initialized && !s.stopping && decide (s.lent = 1)) labels rfl hok
    (by decide +kernel)
  simp only [Bool.and_eq_true, Bool.not_eq_true', decide_eq_true_eq] at h
  obtain ⟨hexact, hcount, -⟩ := redis_pool_accounting hs
  obtain ⟨htotal, hbound⟩ := hcount h.1.1 h.1.2
  exact ⟨s, h.1.1, h.1.2, h.2, hexact, htotal, hbound⟩

/-- `Stop` while a call connects: if the connect fails, the counter goes from zero
to `2 ^ 64 - 1`; if it succeeds, the stopped pool has lent a connection; and with
a second `Init` while that connection is out, the running pool counts one where
there are two. -/
theorem redis_pool_miscounts :
    (∃ s, (lts 1).Reachable s ∧ s.wrapped = true ∧ s.total.toNat = 2 ^ 64 - 1) ∧
      (∃ s t, (lts 1).Reachable s ∧ s.stopping = true ∧ s.lent = 0 ∧
        s.step 1 (.advance 1 {}) = some t ∧ t.stopping = true ∧ t.lent = 1) ∧
      ∃ s, (lts 1).Reachable s ∧ s.initialized = true ∧ s.stopping = false ∧
        s.total = 1 ∧ s.idle = 1 ∧ s.lent = 1 := by
  refine ⟨?_, ?_, ?_⟩
  · obtain ⟨s, hs, h⟩ := Lts.exists_reach_of_run (M := lts 1) (s := {})
      (fun s => s.wrapped && decide (s.total.toNat = 2 ^ 64 - 1))
      (reserveAgain ++ [.stop, .advance 1 { attempt := .noConnection }, .advance 1 {}]) rfl
      Lts.runOk_true (by decide +kernel)
    simp only [Bool.and_eq_true, decide_eq_true_eq] at h
    exact ⟨s, hs, h⟩
  · obtain ⟨s, hs, h⟩ := Lts.exists_reach_of_run (M := lts 1) (s := {})
      (fun s => s.stopping && decide (s.lent = 0) &&
        (s.step 1 (.advance 1 {})).any fun t => t.stopping && decide (t.lent = 1))
      (reserveAgain ++ [.stop, .advance 1 {}]) rfl Lts.runOk_true (by decide +kernel)
    simp only [Bool.and_eq_true, decide_eq_true_eq] at h
    obtain ⟨⟨hstop, hnone⟩, hstep⟩ := h
    cases ht : s.step 1 (.advance 1 {}) with
    | none => rw [ht] at hstep; cases hstep
    | some t =>
      rw [ht] at hstep
      simp only [Option.any_some, Bool.and_eq_true, decide_eq_true_eq] at hstep
      exact ⟨s, t, hs, hstop, hnone, ht, hstep⟩
  · obtain ⟨s, hs, h⟩ := Lts.exists_reach_of_run (M := lts 1) (s := {})
      (fun s => s.initialized && !s.stopping && decide (s.total = 1 ∧ s.idle = 1 ∧ s.lent = 1))
      (reserveAgain ++ [.stop, .advance 1 {}, .advance 1 {}, .init]) rfl Lts.runOk_true
      (by decide +kernel)
    simp only [Bool.and_eq_true, Bool.not_eq_true', decide_eq_true_eq] at h
    exact ⟨s, hs, h.1.1, h.1.2, h.2⟩

end RedisPool
end ChatServer.Redis
