import ChatServer.Base.TwoPhase

/-!
# A database with open transactions

The committed state, the transactions that are open, by the number of their
session, and the writes committed so far. A statement is carried out in the
session's transaction, or commits at once if there is none; it waits for locks
that other sessions hold. It may also fail, lose the transaction, or be carried
out without an answer.

* `Fate` — what becomes of a statement;
* `Database.overlay` — what a session sees: the committed state and its own writes;
* `Database.statement`, `start`, `finish`, `rollback` — the operations;
* `Database.Sound` — no lock is held twice and every write is under a lock;
* `Database.Moves` — what the other sessions notice of an operation; `Moves.view`
  says that it is nothing they have locked.
-/

namespace Base

/-- What becomes of an operation that can fail with an error of type `ε`. -/
inductive Fate (ε : Type) where
  | answered
  /-- it fails without effect -/
  | refused (error : ε)
  /-- it fails and the transaction is rolled back: a deadlock, or a connection that
  breaks before -/
  | aborted (error : ε)
  /-- it is carried out, and the connection breaks before the answer -/
  | unanswered (error : ε)
  deriving DecidableEq, Repr

namespace Fate

variable {ε γ σ : Type}

/-- The answer of an operation that is a transaction of its own, and the state it
leaves. -/
def deliver (fate : Fate ε) (s : σ) (effect : Except ε (γ × σ)) : Except ε γ × σ :=
  match fate, effect with
  | .refused error, _ => (.error error, s)
  | .aborted error, _ => (.error error, s)
  | .answered, .error error => (.error error, s)
  | .answered, .ok (r, s') => (.ok r, s')
  | .unanswered error, .error _ => (.error error, s)
  | .unanswered error, .ok (_, s') => (.error error, s')

theorem deliver_snd (fate : Fate ε) (s : σ) (effect : Except ε (γ × σ)) :
    (fate.deliver s effect).2 = s ∨ ∃ r, effect = .ok (r, (fate.deliver s effect).2) := by
  cases fate <;> rcases effect with error | ⟨r, s'⟩
  all_goals first | exact .inl rfl | exact .inr ⟨r, rfl⟩

end Fate

/-- A committed write, with its session and the state before the commit. -/
structure Committed (S W : Type) where
  session : Nat
  before : S
  write : W
  deriving DecidableEq, Repr

structure Database (S W K : Type) where
  committed : S
  txns : List (Nat × Txn W K) := []
  history : List (Committed S W) := []
  deriving DecidableEq

/-- The locks a statement needs and the writes it makes. -/
structure Granted (W K : Type) where
  locks : List K
  writes : List W
  deriving DecidableEq

variable {S W K V γ : Type}

/-- The writes of a statement are under its locks. -/
def Granted.Covered (M : Store S W K V) (g : Granted W K) : Prop :=
  ∀ w ∈ g.writes, ∀ k ∈ M.touches w, k ∈ g.locks

namespace Database

/-- The transaction of a session. -/
def txn (d : Database S W K) (i : Nat) : Option (Txn W K) :=
  (d.txns.find? (·.1 = i)).map (·.2)

/-- Replace the transaction of a session. -/
def put (d : Database S W K) (i : Nat) (t : Option (Txn W K)) : Database S W K :=
  { d with txns := t.toList.map (i, ·) ++ d.txns.filter (·.1 ≠ i) }

/-- No other session holds any of the locks. -/
def free [DecidableEq K] (d : Database S W K) (i : Nat) (ks : List K) : Bool :=
  d.txns.all fun p => p.1 = i || ks.all (· ∉ p.2.locks)

section

variable (M : Store S W K V)

/-- What a session sees. -/
def overlay (d : Database S W K) (i : Nat) : S :=
  M.applyAll d.committed (((d.txn i).map (·.writes)).getD [])

/-- Commit writes and end the transaction of the session. -/
def commit (d : Database S W K) (i : Nat) (ws : List W) : Database S W K :=
  { d.put i none with
    committed := M.applyAll d.committed ws
    history := d.history ++ ws.map (⟨i, d.committed, ·⟩) }

/-- Make writes under locks: in the transaction, or at once if there is none. -/
def write (d : Database S W K) (i : Nat) (g : Granted W K) : Database S W K :=
  match d.txn i with
  | some t => d.put i (some ⟨t.writes ++ g.writes, t.locks ++ g.locks⟩)
  | none => d.commit M i g.writes

/-- Carry out a statement; `effect` is what it answers and does, or the number of its
error. `none` while it waits for a lock. -/
def statement [DecidableEq K] (d : Database S W K) (fate : Fate Nat) (i : Nat)
    (effect : Except Nat (γ × Granted W K)) : Option (Except Nat γ × Database S W K) :=
  match fate, effect with
  | .refused errno, _ => some (.error errno, d)
  | .aborted errno, _ => some (.error errno, d.put i none)
  | .answered, .error errno => some (.error errno, d)
  | .answered, .ok (r, g) => if d.free i g.locks then some (.ok r, d.write M i g) else none
  | .unanswered errno, .error _ => some (.error errno, d.put i none)
  | .unanswered errno, .ok (_, g) =>
    if d.free i g.locks then some (.error errno, (d.write M i g).put i none) else none

/-- Commit the transaction of a session, if there is one. -/
def finish (d : Database S W K) (i : Nat) : Database S W K :=
  match d.txn i with
  | some t => d.commit M i t.writes
  | none => d

/-- `COMMIT`. -/
def commitCommand (d : Database S W K) (i : Nat) : Fate Nat → Except Nat Unit × Database S W K
  | .answered => (.ok (), d.finish M i)
  | .refused errno => (.error errno, d)
  | .aborted errno => (.error errno, d.put i none)
  | .unanswered errno => (.error errno, d.finish M i)

/-- `START TRANSACTION`, which commits a transaction that is open. -/
def startCommand (d : Database S W K) (i : Nat) : Fate Nat → Except Nat Unit × Database S W K
  | .answered => (.ok (), (d.finish M i).put i (some ⟨[], []⟩))
  | .refused errno => (.error errno, d)
  | .aborted errno => (.error errno, d.put i none)
  | .unanswered errno => (.error errno, d.finish M i)

end

/-- `ROLLBACK`: it succeeds, or the connection is gone and the server does it. -/
def rollbackCommand (d : Database S W K) (i : Nat) :
    Fate Nat → Except Nat Unit × Database S W K
  | .answered => (.ok (), d.put i none)
  | .refused errno | .aborted errno | .unanswered errno => (.error errno, d.put i none)

/-! ## Transactions -/

variable {d d' : Database S W K} {i j : Nat} {t : Txn W K} {M : Store S W K V}

theorem txn_put (d : Database S W K) (i : Nat) (t : Option (Txn W K)) :
    (d.put i t).txn = Function.update d.txn i t := by
  funext j
  unfold txn put
  rw [Function.update_apply]
  by_cases hj : j = i
  · rw [if_pos hj]
    subst hj
    cases t with
    | none => simp [List.find?_filter]
    | some t => simp
  · rw [if_neg hj]
    have hfind : (d.txns.filter (·.1 ≠ i)).find? (·.1 = j) = d.txns.find? (·.1 = j) := by
      rw [List.find?_filter]
      congr 1
      funext p
      by_cases hp : p.1 = j
      · simp [hp, hj]
      · simp [hp]
    cases t with
    | none => exact congrArg _ hfind
    | some t =>
      show ((((i, t) :: d.txns.filter (·.1 ≠ i)).find? (·.1 = j)).map (·.2)) = _
      rw [List.find?_cons_of_neg (by simpa using Ne.symm hj), hfind]

theorem txn_put_self (d : Database S W K) (i : Nat) (t : Option (Txn W K)) :
    (d.put i t).txn i = t := by
  rw [txn_put, Function.update_self]

theorem txn_put_of_ne (d : Database S W K) (t : Option (Txn W K)) (h : j ≠ i) :
    (d.put i t).txn j = d.txn j := by
  rw [txn_put, Function.update_of_ne h]

/-- The transaction of a session put back. -/
theorem txn_put_txn (d : Database S W K) (i : Nat) : (d.put i (d.txn i)).txn = d.txn := by
  rw [txn_put, Function.update_eq_self]

/-- Nothing is written. -/
theorem write_nothing (d : Database S W K) (i : Nat) :
    d.write M i ⟨[], []⟩ = d.put i (d.txn i) := by
  unfold write
  split
  next t ht => simp [ht]
  next ht => simp [ht, commit, put]

theorem free_sound [DecidableEq K] {ks : List K} (h : d.free i ks = true) : Free d.txn i ks := by
  intro j hne t ht k hk hmem
  obtain ⟨p, hfind, rfl⟩ := Option.map_eq_some_iff.mp ht
  have hp := List.all_eq_true.mp h p (List.mem_of_find?_eq_some hfind)
  have hj : p.1 = j := by simpa using List.find?_some hfind
  rcases (Bool.or_eq_true _ _).mp hp with heq | hfree
  · exact hne (hj.symm.trans (of_decide_eq_true heq))
  · exact of_decide_eq_true (List.all_eq_true.mp hfree k hk) hmem

theorem overlay_of_none (h : d.txn i = none) : d.overlay M i = d.committed := by
  unfold overlay
  rw [h]
  rfl

theorem overlay_of_some (h : d.txn i = some t) :
    d.overlay M i = M.applyAll d.committed t.writes := by
  unfold overlay
  rw [h]
  rfl

/-! ## Locks -/

/-- No lock is held twice, and every write is under a lock. -/
structure Sound (M : Store S W K V) (d : Database S W K) : Prop where
  exclusive : Exclusive d.txn
  covered : ∀ i t, d.txn i = some t → M.Covered t

theorem Sound.put_none (h : d.Sound M) (i : Nat) : (d.put i none).Sound M := by
  refine ⟨?_, fun j t ht => ?_⟩
  · rw [txn_put]
    exact exclusive_end h.exclusive i
  · rw [txn_put, Function.update_apply] at ht
    split at ht
    · cases ht
    · exact h.covered j t ht

theorem Sound.put_txn (h : d.Sound M) (i : Nat) : (d.put i (d.txn i)).Sound M :=
  ⟨(txn_put_txn d i).symm ▸ h.exclusive, (txn_put_txn d i).symm ▸ h.covered⟩

theorem Sound.commit (h : d.Sound M) (i : Nat) (ws : List W) : (d.commit M i ws).Sound M :=
  ⟨(h.put_none i).exclusive, (h.put_none i).covered⟩

theorem Sound.put_some (h : d.Sound M) (hfree : Free d.txn i t.locks) (hcovered : M.Covered t) :
    (d.put i (some t)).Sound M := by
  refine ⟨?_, fun j u hu => ?_⟩
  · rw [txn_put]
    exact exclusive_grow h.exclusive hfree
  · rw [txn_put, Function.update_apply] at hu
    split at hu
    · exact Option.some.inj hu ▸ hcovered
    · exact h.covered j u hu

/-- More writes in a transaction. -/
theorem Sound.grow (h : d.Sound M) (ht : d.txn i = some t) {g : Granted W K}
    (hfree : Free d.txn i g.locks) (hcovered : g.Covered M) :
    (d.put i (some ⟨t.writes ++ g.writes, t.locks ++ g.locks⟩)).Sound M := by
  refine h.put_some ((h.exclusive.free ht).append hfree) fun w hw k hk => ?_
  rcases List.mem_append.mp hw with hw | hw
  · exact List.mem_append_left _ (h.covered i t ht w hw k hk)
  · exact List.mem_append_right _ (hcovered w hw k hk)

/-! ## What the others notice -/

/-- Session `i` has committed `ws`, which nobody else has locked, and the other
sessions are where they were. -/
structure Moves (M : Store S W K V) (d d' : Database S W K) (i : Nat) (ws : List W) : Prop where
  committed : d'.committed = M.applyAll d.committed ws
  history : d'.history = d.history ++ ws.map (⟨i, d.committed, ·⟩)
  others : ∀ j, j ≠ i → d'.txn j = d.txn j
  untouched : ∀ j, j ≠ i → ∀ t ∈ d.txn j, ∀ k ∈ t.locks, ∀ w ∈ ws, k ∉ M.touches w

theorem Moves.refl (d : Database S W K) (i : Nat) : Moves M d d i [] :=
  ⟨rfl, (List.append_nil _).symm, fun _ _ => rfl,
    fun _ _ _ _ _ _ _ hw => absurd hw List.not_mem_nil⟩

/-- Whatever the session does to its own transaction. -/
theorem Moves.put {ws : List W} (h : Moves M d d' i ws) (t : Option (Txn W K)) :
    Moves M d (d'.put i t) i ws :=
  ⟨h.committed, h.history, fun j hj => (txn_put_of_ne d' t hj).trans (h.others j hj), h.untouched⟩

theorem moves_put (d : Database S W K) (i : Nat) (t : Option (Txn W K)) :
    Moves M d (d.put i t) i [] := (Moves.refl d i).put t

theorem moves_commit {ws : List W} {ks : List K} (hfree : Free d.txn i ks)
    (hcovered : ∀ w ∈ ws, ∀ k ∈ M.touches w, k ∈ ks) : Moves M d (d.commit M i ws) i ws := by
  refine ⟨rfl, rfl, fun j hj => txn_put_of_ne d none hj, fun j hj t ht k hk w hw hmem => ?_⟩
  exact hfree j hj t ht k (hcovered w hw k hmem) hk

/-- `COMMIT` of an open transaction. -/
theorem Sound.moves_finish (h : d.Sound M) (ht : d.txn i = some t) :
    d.finish M i = d.commit M i t.writes ∧ Moves M d (d.commit M i t.writes) i t.writes := by
  refine ⟨?_, moves_commit (h.exclusive.free ht) (h.covered i t ht)⟩
  unfold finish
  rw [ht]

/-- What another session has locked looks the same to it. -/
theorem Moves.view {ws : List W} (h : Moves M d d' i ws) (hne : j ≠ i) (ht : d.txn j = some t)
    {k : K} (hk : k ∈ t.locks) :
    M.view k (M.applyAll d'.committed t.writes) = M.view k (M.applyAll d.committed t.writes) := by
  refine M.view_applyAll_congr _ ?_
  rw [h.committed]
  exact M.view_applyAll_of_not_touched _ (h.untouched j hne t ht k hk)

/-- What a statement did: nothing but perhaps ending the transaction, or the writes it
was granted. -/
theorem statement_cases [DecidableEq K] {fate : Fate Nat}
    {effect : Except Nat (γ × Granted W K)}
    {answer : Except Nat γ} (h : d.statement M fate i effect = some (answer, d')) :
    (∃ errno, answer = .error errno ∧ (d' = d ∨ d' = d.put i none)) ∨
      ∃ r g, effect = .ok (r, g) ∧ Free d.txn i g.locks ∧
        ((answer = .ok r ∧ d' = d.write M i g) ∨
          ∃ errno, answer = .error errno ∧ d' = (d.write M i g).put i none) := by
  unfold statement at h
  split at h
  next errno =>
    cases h
    exact .inl ⟨errno, rfl, .inl rfl⟩
  next errno =>
    cases h
    exact .inl ⟨errno, rfl, .inr rfl⟩
  next errno =>
    cases h
    exact .inl ⟨errno, rfl, .inl rfl⟩
  next r g =>
    obtain ⟨hfree, heq⟩ := Option.ite_none_right_eq_some.mp h
    cases heq
    exact .inr ⟨r, g, rfl, free_sound hfree, .inl ⟨rfl, rfl⟩⟩
  next errno _ =>
    cases h
    exact .inl ⟨errno, rfl, .inr rfl⟩
  next errno r g =>
    obtain ⟨hfree, heq⟩ := Option.ite_none_right_eq_some.mp h
    cases heq
    exact .inr ⟨r, g, rfl, free_sound hfree, .inr ⟨errno, rfl, rfl⟩⟩

end Database
end Base
