import Mathlib.Logic.Relation

/-!
# Labelled transition systems

Executable transition systems: a set of initial states and a partial step
function driven by labels. The labels carry everything the environment
decides, so a run is a list of labels and a concrete run can be evaluated.

* `Lts.Reach M ok` — states reached by runs all of whose steps meet `ok` in
  the state they start from; `Lts.Reachable` is the unrestricted case;
* `Lts.Inductive.invariant` — the invariant rule;
* `Lts.Inductive.relative` — the same rule relative to a known invariant;
* `Lts.reach_of_run` — an evaluated run is a reachability proof;
  `Lts.exists_reach_of_run` tests its last state;
* `Lts.of_run` — what every step keeps, a run keeps;
* `Lts.Assured` — one thread brings about a property in a bounded number of its
  own steps, however the others are scheduled.
-/

namespace Base

universe u v w

/-- A system with executable steps; `none` means the label is not enabled. -/
structure Lts (S : Type u) (L : Type v) where
  Init : S → Prop
  step : S → L → Option S

namespace Lts

variable {S : Type u} {L : Type v} (M : Lts S L)

/-- States reached by runs whose every step meets `ok` in its pre-state. -/
inductive Reach (ok : S → L → Prop) : S → Prop
  | init {s : S} : M.Init s → Reach ok s
  | step {s : S} {l : L} {s' : S} :
      Reach ok s → ok s l → M.step s l = some s' → Reach ok s'

/-- States reached by any run. -/
def Reachable : S → Prop := M.Reach (fun _ _ => True)

/-- Weakening the side condition on steps keeps every reached state. -/
theorem Reach.mono {M : Lts S L} {ok ok' : S → L → Prop}
    (h : ∀ s l, ok s l → ok' s l) {s : S} (hs : M.Reach ok s) : M.Reach ok' s := by
  induction hs with
  | init hi => exact .init hi
  | step _ hok hstep ih => exact .step ih (h _ _ hok) hstep

/-- Guarded runs are runs. -/
theorem Reach.reachable {M : Lts S L} {ok : S → L → Prop} {s : S}
    (hs : M.Reach ok s) : M.Reachable s :=
  hs.mono (fun _ _ _ => trivial)

/-- `I` holds initially and every admitted step keeps it. -/
structure Inductive (ok : S → L → Prop) (I : S → Prop) : Prop where
  init : ∀ s, M.Init s → I s
  step : ∀ s l s', I s → ok s l → M.step s l = some s' → I s'

/-- The invariant rule. -/
theorem Inductive.invariant {M : Lts S L} {ok : S → L → Prop} {I : S → Prop}
    (h : M.Inductive ok I) {s : S} (hs : M.Reach ok s) : I s := by
  induction hs with
  | init hi => exact h.init _ hi
  | step _ hok hstep ih => exact h.step _ _ _ ih hok hstep

/-- The invariant rule relative to a property `J` already known of every
reached state. -/
theorem Inductive.relative {M : Lts S L} {ok : S → L → Prop} {I J : S → Prop}
    (hJ : ∀ s, M.Reach ok s → J s) (hinit : ∀ s, M.Init s → I s)
    (hstep : ∀ s l s', J s → J s' → I s → ok s l → M.step s l = some s' → I s')
    {s : S} (hs : M.Reach ok s) : I s := by
  induction hs with
  | init hi => exact hinit _ hi
  | step hr hok hst ih => exact hstep _ _ _ (hJ _ hr) (hJ _ (.step hr hok hst)) ih hok hst

/-- Run a list of labels. -/
def run : S → List L → Option S
  | s, [] => some s
  | s, l :: ls => (M.step s l).bind fun s' => run s' ls

/-- `ok` holds at every step of the run. -/
def RunOk (ok : S → L → Prop) : S → List L → Prop
  | _, [] => True
  | s, l :: ls => ok s l ∧ ∀ s', M.step s l = some s' → RunOk ok s' ls

/-- A run can be checked step by step. -/
instance decidableRunOk {ok : S → L → Prop} [∀ s l, Decidable (ok s l)] :
    ∀ (s : S) (ls : List L), Decidable (M.RunOk ok s ls)
  | _, [] => isTrue trivial
  | s, l :: ls =>
    match hstep : M.step s l with
    | none => decidable_of_iff (ok s l) <| by simp [RunOk, hstep]
    | some s' =>
      have : Decidable (M.RunOk ok s' ls) := decidableRunOk s' ls
      decidable_of_iff (ok s l ∧ M.RunOk ok s' ls) <| by simp [RunOk, hstep]

/-- An evaluated run from a reached state reaches its end. -/
theorem reach_of_run {M : Lts S L} {ok : S → L → Prop} :
    ∀ {ls : List L} {s t : S}, M.Reach ok s → M.RunOk ok s ls → M.run s ls = some t →
      M.Reach ok t := by
  intro ls
  induction ls with
  | nil =>
    intro s t hs _ h
    cases h
    exact hs
  | cons l ls ih =>
    intro s t hs hok h
    simp only [run, Option.bind_eq_some_iff] at h
    obtain ⟨s', hstep, hrun⟩ := h
    exact ih (.step hs hok.1 hstep) (hok.2 s' hstep) hrun

/-- What every step keeps, a run keeps. -/
theorem of_run {M : Lts S L} {P : S → Prop}
    (hstep : ∀ s l s', P s → M.step s l = some s' → P s') :
    ∀ {ls : List L} {s t : S}, P s → M.run s ls = some t → P t := by
  intro ls
  induction ls with
  | nil =>
    intro s t hs h
    cases h
    exact hs
  | cons l ls ih =>
    intro s t hs h
    simp only [run, Option.bind_eq_some_iff] at h
    obtain ⟨s', hl, hrun⟩ := h
    exact ih (hstep s l s' hs hl) hrun

theorem runOk_true {M : Lts S L} {ls : List L} {s : S} : M.RunOk (fun _ _ => True) s ls := by
  induction ls generalizing s with
  | nil => trivial
  | cons l ls ih => exact ⟨trivial, fun _ _ => ih⟩

/-- A test that succeeds at the end of an evaluated run holds of a reached
state. -/
theorem exists_reach_of_run {M : Lts S L} {ok : S → L → Prop} {s : S} (p : S → Bool)
    (ls : List L) (hs : M.Init s) (hok : M.RunOk ok s ls) (h : (M.run s ls).any p = true) :
    ∃ t, M.Reach ok t ∧ p t = true := by
  cases hrun : M.run s ls with
  | none => simp [hrun] at h
  | some t =>
    rw [hrun] at h
    exact ⟨t, reach_of_run (.init hs) hok hrun, h⟩

/-! ## Progress -/

/-- `P` holds after `n` steps of the thread whose labels are `mine`, however the
other threads are scheduled, and until then that thread is not blocked. -/
structure Assured (mine : L → Bool) (P : S → Prop) (n : Nat) (s : S) : Prop where
  bound : ∀ ls t, M.run s ls = some t → n ≤ ls.countP mine → P t
  enabled : ∀ ls t, M.run s ls = some t → ¬ P t → ∃ l, mine l = true ∧ (M.step t l).isSome = true

section

variable {M : Lts S L} {mine : L → Bool} {P : S → Prop} {s : S} {n : Nat}

theorem Assured.mono {m : Nat} (h : M.Assured mine P n s) (hle : n ≤ m) : M.Assured mine P m s :=
  ⟨fun ls t hrun hcount => h.bound ls t hrun (Nat.le_trans hle hcount), h.enabled⟩

/-- A count of the steps to come that every step of the thread lowers and no
other step raises. -/
theorem Assured.of_countdown {J : Nat → S → Prop}
    (hstep : ∀ n s l s', J n s → M.step s l = some s' → J (n - (mine l).toNat) s')
    (hdone : ∀ s, J 0 s → P s)
    (henabled : ∀ n s, J n s → ¬ P s → ∃ l, mine l = true ∧ (M.step s l).isSome = true)
    (hs : J n s) : M.Assured mine P n s := by
  have hrun : ∀ ls n s t, J n s → M.run s ls = some t → J (n - ls.countP mine) t := by
    intro ls
    induction ls with
    | nil =>
      intro n s t hs hrun
      cases hrun
      exact hs
    | cons l ls ih =>
      intro n s t hs hrun
      simp only [run, Option.bind_eq_some_iff] at hrun
      obtain ⟨s', hl, hrun⟩ := hrun
      have hrest := ih _ s' t (hstep n s l s' hs hl) hrun
      have hcount : (l :: ls).countP mine = (mine l).toNat + ls.countP mine := by
        cases hmine : mine l with
        | true => rw [List.countP_cons_of_pos hmine, Nat.add_comm]; rfl
        | false => rw [List.countP_cons_of_neg (by simp [hmine]), Bool.toNat_false, Nat.zero_add]
      rwa [hcount, Nat.sub_add_eq]
  refine ⟨fun ls t ht hcount => hdone t ?_, fun ls t ht hno => ?_⟩
  · have hend := hrun ls n s t hs ht
    rwa [Nat.sub_eq_zero_of_le hcount] at hend
  · exact henabled _ t (hrun ls n s t hs ht) hno

end

end Lts
end Base
