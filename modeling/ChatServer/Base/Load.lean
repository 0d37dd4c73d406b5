import Mathlib.Algebra.BigOperators.Group.List.Basic
import Mathlib.Algebra.Group.Hom.Basic
import Mathlib.Data.List.Basic
import Mathlib.Algebra.Order.Group.Multiset

/-!
# Loads of lists

`load w l` adds up what the elements of a list weigh, in any commutative
monoid: a number, a multiset of things the elements stand for, or a tuple of
both. Invariants of the form "the counter says how many items are under way"
are equations between loads. `load_focus` singles out one element, so that
replacing or removing it needs no subtraction.
-/

namespace Base

universe u v w

section

variable {α : Type u} {β : Type v} {M : Type w} [AddCommMonoid M] (f : α → M)

/-- The total weight of a list. -/
def load (l : List α) : M := (l.map f).sum

@[simp] theorem load_nil : load f [] = 0 := rfl

@[simp] theorem load_cons (a : α) (l : List α) : load f (a :: l) = f a + load f l := by
  simp [load]

@[simp] theorem load_append (l m : List α) : load f (l ++ m) = load f l + load f m := by
  simp [load]

theorem load_map (g : β → α) (l : List β) : load f (l.map g) = load (fun b => f (g b)) l := by
  simp [load, Function.comp_def]

/-- Weights that are all nothing weigh nothing. -/
theorem load_eq_zero {l : List α} (h : ∀ a ∈ l, f a = 0) : load f l = 0 := by
  induction l with
  | nil => rfl
  | cons a l ih =>
    rw [load_cons, h a List.mem_cons_self, zero_add]
    exact ih fun b hb => h b (List.mem_cons_of_mem _ hb)

/-- Single out the element at a position: what the rest weighs does not depend
on what stands there. -/
theorem load_focus {l : List α} {i : Nat} {a : α} (h : l[i]? = some a) :
    ∃ rest : M, load f l = f a + rest ∧ load f (l.eraseIdx i) = rest ∧
      ∀ b, load f (l.set i b) = f b + rest := by
  induction l generalizing i with
  | nil => simp at h
  | cons x xs ih =>
    cases i with
    | zero =>
      simp only [List.getElem?_cons_zero, Option.some.injEq] at h
      subst h
      exact ⟨load f xs, load_cons f x xs, rfl, fun b => load_cons f b xs⟩
    | succ j =>
      simp only [List.getElem?_cons_succ] at h
      obtain ⟨rest, hl, he, hs⟩ := ih h
      refine ⟨f x + rest, ?_, ?_, fun b => ?_⟩
      · rw [load_cons, hl, add_left_comm]
      · rw [List.eraseIdx_cons_succ, load_cons, he]
      · rw [List.set_cons_succ, load_cons, hs, add_left_comm]

/-- Loads commute with homomorphisms of what is weighed. -/
theorem map_load {N : Type w} [AddCommMonoid N] (φ : M →+ N) (l : List α) :
    φ (load f l) = load (fun a => φ (f a)) l := by
  induction l with
  | nil => exact map_zero φ
  | cons a l ih => rw [load_cons, load_cons, map_add, ih]

end

/-- A thing a list stands for is stood for by one of its elements. -/
theorem mem_load {α : Type u} {β : Type v} {f : α → Multiset β} {l : List α} {b : β} :
    b ∈ load f l ↔ ∃ a ∈ l, b ∈ f a := by
  induction l with
  | nil => simp
  | cons a l ih => simp [ih]

/-- Loading what each element has at most one of. -/
theorem load_toList_eq_filterMap {α : Type u} {β : Type v} (g : α → Option β) (l : List α) :
    load (fun a => ((g a).toList : Multiset β)) l = l.filterMap g := by
  induction l with
  | nil => rfl
  | cons a l ih =>
    rw [load_cons, ih, List.filterMap_cons]
    cases g a with
    | none => simp
    | some b => simp

/-- Counting is loading with weights one and nothing. -/
theorem load_ite_eq_countP {α : Type u} (p : α → Bool) (l : List α) :
    load (fun a => if p a then 1 else 0) l = l.countP p := by
  induction l with
  | nil => rfl
  | cons a l ih =>
    rw [load_cons, ih, List.countP_cons, Nat.add_comm]

end Base
