import ChatServer.Base.Lts
import ChatServer.Base.Observed

/-!
# Programs that share a state

Any number of programs run side by side on one state. A step starts a program or
carries out the next call of one of them; what the environment decides about the
call is part of the label. A call is carried out for the number of its program, and
every program is watched by an observer of its own.

* `Threads.lts` — the transition system;
* `Threads.call_inv` — what a call that was carried out says;
* `Threads.Upholds` — what every call keeps: a fact about the state and the number of
  programs, and a fact about the state and each program and its observer that the
  calls of the others leave true;
* `Threads.Upholds.invariant` — the rule; `Threads.Upholds.of_step` is what it
  says of the call a step carries out.
-/

namespace Base

/-- What requests run, what is observed of them, and how a call is carried out:
`none` if it cannot be carried out in this way. -/
structure Threads (Op : Type → Type 1) (ε α σ τ κ χ : Type) where
  Init : σ → Prop
  program : κ → Prog Op ε α
  start : κ → τ
  see : τ → Event Op → τ
  exec : χ → Nat → σ → ∀ {γ : Type}, Op γ → Option (γ × σ)

/-- A program under way, with its observer. -/
structure Thread (Op : Type → Type 1) (ε α τ : Type) where
  rest : Prog Op ε α
  seen : τ

/-- The shared state and the programs, in the order they were started. -/
structure Shared (Op : Type → Type 1) (ε α σ τ : Type) where
  state : σ
  threads : List (Thread Op ε α τ) := []

inductive ThreadLabel (κ χ : Type) where
  | start (request : κ)
  | call (i : Nat) (choice : χ)
  deriving DecidableEq, Repr

/-- The observer of the program whose call a step carries out. -/
def Shared.acting {Op : Type → Type 1} {ε α σ τ κ χ : Type} (s : Shared Op ε α σ τ) :
    ThreadLabel κ χ → Option τ
  | .start _ => none
  | .call i _ => (s.threads[i]?).map (·.seen)

/-- Whether the call a step carries out has a property. -/
def Shared.carries {Op : Type → Type 1} {ε α σ τ κ χ : Type} (p : ∀ {γ : Type}, Op γ → Bool)
    (s : Shared Op ε α σ τ) : ThreadLabel κ χ → Bool
  | .start _ => false
  | .call i _ =>
    match s.threads[i]? with
    | some ⟨.call op _, _⟩ => p op
    | _ => false

namespace Threads

variable {Op : Type → Type 1} {ε α σ τ κ χ : Type} (M : Threads Op ε α σ τ κ χ)

/-- Carry out the next call of a program. -/
def advance (choice : χ) (i : Nat) (state : σ) : Thread Op ε α τ → Option (σ × Thread Op ε α τ)
  | ⟨.call op next, seen⟩ =>
    (M.exec choice i state op).map fun p => (p.2, ⟨next p.1, M.see seen ⟨op, p.1⟩⟩)
  | _ => none

def step (s : Shared Op ε α σ τ) : ThreadLabel κ χ → Option (Shared Op ε α σ τ)
  | .start request =>
    some { s with threads := s.threads ++ [⟨M.program request, M.start request⟩] }
  | .call i choice =>
    (s.threads[i]?).bind fun th =>
      (M.advance choice i s.state th).map fun p => ⟨p.1, s.threads.set i p.2⟩

def lts : Lts (Shared Op ε α σ τ) (ThreadLabel κ χ) where
  Init s := M.Init s.state ∧ s.threads = []
  step := M.step

/-- The call a step carries out. -/
structure Calls (s : Shared Op ε α σ τ) (i : Nat) (choice : χ) (s' : Shared Op ε α σ τ) where
  th : Thread Op ε α τ
  {γ : Type}
  op : Op γ
  next : γ → Prog Op ε α
  answer : γ
  mem : s.threads[i]? = some th
  rest : th.rest = .call op next
  exec : M.exec choice i s.state op = some (answer, s'.state)
  threads : s'.threads = s.threads.set i ⟨next answer, M.see th.seen ⟨op, answer⟩⟩

variable {M} {s s' : Shared Op ε α σ τ}

theorem call_inv {i : Nat} {choice : χ} (h : M.step s (.call i choice) = some s') :
    Nonempty (M.Calls s i choice s') := by
  obtain ⟨⟨rest, seen⟩, hth, h⟩ := Option.bind_eq_some_iff.mp h
  obtain ⟨⟨state, th⟩, hadvance, rfl⟩ := Option.map_eq_some_iff.mp h
  cases rest with
  | pure a => cases hadvance
  | throw e => cases hadvance
  | call op next =>
    obtain ⟨⟨answer, state'⟩, hexec, heq⟩ := Option.map_eq_some_iff.mp hadvance
    cases heq
    exact ⟨⟨⟨.call op next, seen⟩, op, next, answer, hth, rfl, hexec, rfl⟩⟩

theorem Calls.carries {i : Nat} {choice : χ} (c : M.Calls s i choice s')
    (p : ∀ {γ : Type}, Op γ → Bool) :
    s.carries p (.call i choice : ThreadLabel κ χ) = p c.op := by
  obtain ⟨⟨rest, seen⟩, op, next, answer, hmem, hrest, -, -⟩ := c
  dsimp only at hrest
  simp only [Shared.carries, hmem, hrest]

variable (M)

/-- What every call keeps. `guar` is what the programs guarantee of the calls they
make and `Q` what they do of their results, `I` holds of the state and the number of
programs started and `J` of the state and each program. -/
structure Upholds (guar : τ → ∀ {γ : Type}, Op γ → Prop) (Q : α → τ → Prop) (I : σ → Nat → Prop)
    (J : σ → Nat → τ → Prop) : Prop where
  init : ∀ state, M.Init state → I state 0
  obeys : ∀ request, (M.program request).Obeys M.see guar Q (M.start request)
  start : ∀ state n request, I state n → I state (n + 1) ∧ J state n (M.start request)
  call : ∀ {choice i n state state' seen} {γ : Type} {op : Op γ} {answer}, i < n → I state n →
    J state i seen → guar seen op → M.exec choice i state op = some (answer, state') →
      I state' n ∧ J state' i (M.see seen ⟨op, answer⟩)
  /-- the other programs -/
  stable : ∀ {choice i j n state state' seen seen'} {γ : Type} {op : Op γ} {answer}, I state n →
    J state i seen → guar seen op → M.exec choice i state op = some (answer, state') →
      j ≠ i → J state j seen' → J state' j seen'

/-- The state, every program, and what the programs still guarantee. -/
structure Held (guar : τ → ∀ {γ : Type}, Op γ → Prop) (Q : α → τ → Prop) (I : σ → Nat → Prop)
    (J : σ → Nat → τ → Prop) (s : Shared Op ε α σ τ) : Prop where
  state : I s.state s.threads.length
  seen : ∀ (i : Nat) (th : Thread Op ε α τ), s.threads[i]? = some th → J s.state i th.seen
  rest : ∀ (i : Nat) (th : Thread Op ε α τ), s.threads[i]? = some th →
    th.rest.Obeys M.see guar Q th.seen

variable {M} {guar : τ → ∀ {γ : Type}, Op γ → Prop} {Q : α → τ → Prop} {I : σ → Nat → Prop}
  {J : σ → Nat → τ → Prop}

/-- A program after one more was started: an old one, or the new one. -/
theorem getElem?_concat {th new : Thread Op ε α τ} {ths : List (Thread Op ε α τ)} {i : Nat}
    (h : (ths ++ [new])[i]? = some th) : ths[i]? = some th ∨ i = ths.length ∧ th = new := by
  rw [List.getElem?_append] at h
  split at h
  · exact .inl h
  next hge =>
    obtain ⟨hlt, -⟩ := List.getElem?_eq_some_iff.mp h
    rw [List.length_singleton] at hlt
    exact .inr ⟨by omega, List.mem_singleton.mp (List.mem_of_getElem? h)⟩

theorem Upholds.start_step (h : M.Upholds guar Q I J) {request : κ}
    (hs : M.Held guar Q I J s) :
    M.Held guar Q I J
      { s with threads := s.threads ++ [⟨M.program request, M.start request⟩] } := by
  obtain ⟨hstate, hnew⟩ := h.start _ _ request hs.state
  refine ⟨?_, fun i th hth => ?_, fun i th hth => ?_⟩
  · rwa [List.length_append]
  · rcases getElem?_concat hth with hth | ⟨rfl, rfl⟩
    · exact hs.seen i th hth
    · exact hnew
  · rcases getElem?_concat hth with hth | ⟨-, rfl⟩
    · exact hs.rest i th hth
    · exact h.obeys request

/-- What the program that moves guarantees of its call. -/
theorem Held.guar_of_calls (hs : M.Held guar Q I J s) {i : Nat} {choice : χ}
    (c : M.Calls s i choice s') : guar c.th.seen c.op := by
  have hrest := hs.rest i c.th c.mem
  rw [c.rest] at hrest
  exact hrest.1

theorem Upholds.call_step (h : M.Upholds guar Q I J) {i : Nat} {choice : χ}
    (hs : M.Held guar Q I J s) (c : M.Calls s i choice s') : M.Held guar Q I J s' := by
  have hguar := hs.guar_of_calls c
  have hlt : i < s.threads.length := (List.getElem?_eq_some_iff.mp c.mem).1
  obtain ⟨hstate, hseen⟩ := h.call hlt hs.state (hs.seen i c.th c.mem) hguar c.exec
  have hrest := hs.rest i c.th c.mem
  rw [c.rest] at hrest
  refine ⟨?_, fun j th hj => ?_, fun j th hj => ?_⟩
  · rwa [c.threads, List.length_set]
  · rw [c.threads, List.getElem?_set] at hj
    split at hj
    next heq =>
      subst heq
      obtain rfl := Option.some.inj hj
      exact hseen
    next hne =>
      exact h.stable hs.state (hs.seen i c.th c.mem) hguar c.exec (Ne.symm hne) (hs.seen j th hj)
  · rw [c.threads, List.getElem?_set] at hj
    split at hj
    next heq =>
      obtain rfl := Option.some.inj hj
      exact hrest.2 c.answer
    next => exact hs.rest j th hj

/-- The rule. -/
theorem Upholds.invariant (h : M.Upholds guar Q I J)
    {ok : Shared Op ε α σ τ → ThreadLabel κ χ → Prop} (hs : M.lts.Reach ok s) :
    M.Held guar Q I J s := by
  refine Lts.Inductive.invariant ⟨fun s hinit => ?_, fun s l s' hs _ hstep => ?_⟩ hs
  · obtain ⟨hstate, hnone⟩ := hinit
    refine ⟨?_, ?_, ?_⟩
    · rw [hnone]
      exact h.init _ hstate
    all_goals simp [hnone]
  · cases l with
    | start request =>
      obtain rfl := Option.some.inj hstep
      exact h.start_step hs
    | call i choice =>
      obtain ⟨c⟩ := call_inv hstep
      exact h.call_step hs c

/-- A step leaves the state alone, or carries out a call the program guarantees
something of. -/
theorem Upholds.of_step (h : M.Upholds guar Q I J)
    {ok : Shared Op ε α σ τ → ThreadLabel κ χ → Prop} (hs : M.lts.Reach ok s) {l : ThreadLabel κ χ}
    (hstep : M.step s l = some s') :
    s'.state = s.state ∨
      ∃ i seen, s.acting l = some seen ∧ J s.state i seen ∧ ∃ (choice : χ) (γ : Type) (op : Op γ)
        (answer : γ), guar seen op ∧ M.exec choice i s.state op = some (answer, s'.state) := by
  cases l with
  | start request =>
    obtain rfl := Option.some.inj hstep
    exact .inl rfl
  | call i choice =>
    obtain ⟨c⟩ := call_inv hstep
    have hheld := h.invariant hs
    refine .inr ⟨i, c.th.seen, ?_, hheld.seen i _ c.mem, choice, _, c.op, c.answer,
      hheld.guar_of_calls c, c.exec⟩
    show (s.threads[i]?).map (·.seen) = _
    rw [c.mem]
    rfl

end Threads
end Base
