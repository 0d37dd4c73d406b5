import Mathlib.Data.List.Basic

/-!
# Texts joined by a separator

Two texts joined by a separator can be taken apart again where one of them does
not contain it: at the first separator, if it is the left one, and at the last, if
it is the right one. Texts that begin with one of several words none of which
begins another can be told apart by it.
-/

namespace Base

universe u

variable {α : Type u} {sep : α} {a b r r' : List α}

/-- Split at the first separator. -/
theorem split_first (ha : sep ∉ a) (hb : sep ∉ b) (h : a ++ sep :: r = b ++ sep :: r') :
    a = b ∧ r = r' := by
  induction a generalizing b with
  | nil =>
    cases b with
    | nil => exact ⟨rfl, (List.cons.inj h).2⟩
    | cons y b =>
      have hy : sep = y := (List.cons.inj h).1
      exact absurd (hy ▸ List.mem_cons_self) hb
  | cons x a ih =>
    cases b with
    | nil =>
      have hx : x = sep := (List.cons.inj h).1
      exact absurd (hx ▸ List.mem_cons_self) ha
    | cons y b =>
      obtain ⟨hxy, hrest⟩ := List.cons.inj h
      obtain ⟨hab, hr⟩ := ih (fun hm => ha (List.mem_cons_of_mem _ hm))
        (fun hm => hb (List.mem_cons_of_mem _ hm)) hrest
      exact ⟨by rw [hxy, hab], hr⟩

/-- Split at the last separator. -/
theorem split_last (hr : sep ∉ r) (hr' : sep ∉ r') (h : a ++ sep :: r = b ++ sep :: r') :
    a = b ∧ r = r' := by
  rcases List.append_eq_append_iff.mp h with ⟨c, rfl, hc⟩ | ⟨c, rfl, hc⟩
  · cases c with
    | nil => exact ⟨(List.append_nil a).symm, (List.cons.inj hc).2⟩
    | cons x c => exact absurd ((List.cons.inj hc).2 ▸ by simp) hr
  · cases c with
    | nil => exact ⟨List.append_nil b, (List.cons.inj hc).2.symm⟩
    | cons x c => exact absurd ((List.cons.inj hc).2 ▸ by simp) hr'

/-- Split after the first word, when no word begins another. -/
theorem split_word {ι : Type*} {word : ι → List α} (hfree : ∀ i j, word i <+: word j → i = j)
    {i j : ι} (h : word i ++ r = word j ++ r') : i = j ∧ r = r' := by
  have hi : word i <+: word j ++ r' := ⟨r, h⟩
  have hij : i = j := by
    rcases List.prefix_or_prefix_of_prefix hi (List.prefix_append _ _) with hle | hle
    · exact hfree i j hle
    · exact (hfree j i hle).symm
  subst hij
  exact ⟨rfl, List.append_cancel_left h⟩

end Base
