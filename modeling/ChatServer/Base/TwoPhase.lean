import Mathlib.Data.Fintype.Basic
import Mathlib.Logic.Function.Basic

/-!
# Transactions under strict two-phase locking

A store is read and written through resources. A transaction keeps its writes
to itself and holds a lock on every resource they touch until it commits or
rolls back; no lock is held by two transactions.

* `Store` — writes, the view a resource gives of a state, and the resources a
  write touches: a write does not change the views it does not touch, and what
  it does to a view depends on that view only;
* `Exclusive` — no lock is held twice, kept by `exclusive_grow` and
  `exclusive_end`;
* `Store.view_stable` — nobody else's commit changes what a transaction has
  locked.
-/

namespace Base

universe u v w

/-- An open transaction: its writes in order, and the locks it holds. -/
structure Txn (W : Type u) (K : Type v) where
  writes : List W
  locks : List K
  deriving DecidableEq

/-- How writes act on states, seen through resources. -/
structure Store (S W K V : Type u) where
  apply : S → W → S
  view : K → S → V
  touches : W → List K
  frame : ∀ {k : K} {w : W} (s : S), k ∉ touches w → view k (apply s w) = view k s
  congr : ∀ {k : K} {s s' : S} (w : W), view k s = view k s' →
    view k (apply s w) = view k (apply s' w)

namespace Store

variable {S W K V : Type u} (M : Store S W K V)

/-- Apply writes in order. -/
def applyAll (s : S) (ws : List W) : S := ws.foldl M.apply s

@[simp] theorem applyAll_nil (s : S) : M.applyAll s [] = s := rfl

@[simp] theorem applyAll_concat (s : S) (ws : List W) (w : W) :
    M.applyAll s (ws ++ [w]) = M.apply (M.applyAll s ws) w := by
  simp [applyAll]

theorem applyAll_append (s : S) (ws vs : List W) :
    M.applyAll s (ws ++ vs) = M.applyAll (M.applyAll s ws) vs := by
  simp [applyAll]

/-- Writes leave the views they do not touch alone. -/
theorem view_applyAll_of_not_touched {k : K} {ws : List W} (s : S)
    (h : ∀ w ∈ ws, k ∉ M.touches w) : M.view k (M.applyAll s ws) = M.view k s := by
  induction ws generalizing s with
  | nil => rfl
  | cons w ws ih =>
    have hrest := ih (M.apply s w) fun w' hw' => h w' (List.mem_cons_of_mem _ hw')
    exact hrest.trans (M.frame s (h w List.mem_cons_self))

/-- What writes do to a view depends on that view only. -/
theorem view_applyAll_congr {k : K} {s s' : S} (ws : List W) (h : M.view k s = M.view k s') :
    M.view k (M.applyAll s ws) = M.view k (M.applyAll s' ws) := by
  induction ws generalizing s s' with
  | nil => exact h
  | cons w ws ih => exact ih (M.congr w h)

/-- Every write of the transaction is under its locks. -/
def Covered (t : Txn W K) : Prop := ∀ w ∈ t.writes, ∀ k ∈ M.touches w, k ∈ t.locks

/-- A commit changes only what the transaction has locked. -/
theorem Covered.view_commit {M : Store S W K V} {t : Txn W K} (h : M.Covered t) {k : K}
    (hk : k ∉ t.locks) (s : S) : M.view k (M.applyAll s t.writes) = M.view k s := by
  apply M.view_applyAll_of_not_touched
  intro w hw hmem
  exact hk (h w hw k hmem)

end Store

section

variable {ι : Type v} {W K : Type u} {txns : ι → Option (Txn W K)}

/-- No lock is held by two transactions. -/
def Exclusive (txns : ι → Option (Txn W K)) : Prop :=
  ∀ i j t u, i ≠ j → txns i = some t → txns j = some u → ∀ k ∈ t.locks, k ∉ u.locks

/-- No transaction other than that of `i` holds any of the locks. -/
def Free (txns : ι → Option (Txn W K)) (i : ι) (ks : List K) : Prop :=
  ∀ j, j ≠ i → ∀ t ∈ txns j, ∀ k ∈ ks, k ∉ t.locks

instance [Fintype ι] [DecidableEq ι] [DecidableEq K] (i : ι) (ks : List K) :
    Decidable (Free txns i ks) := by
  unfold Free
  infer_instance

theorem Exclusive.free (h : Exclusive txns) {i : ι} {t : Txn W K} (hi : txns i = some t) :
    Free txns i t.locks := by
  intro j hne u hu k hk
  exact h i j t u (Ne.symm hne) hi hu k hk

theorem Free.append {i : ι} {ks ls : List K} (hk : Free txns i ks) (hl : Free txns i ls) :
    Free txns i (ks ++ ls) := by
  intro j hne t ht k hmem
  rcases List.mem_append.mp hmem with h | h
  · exact hk j hne t ht k h
  · exact hl j hne t ht k h

variable [DecidableEq ι]

/-- A transaction may hold locks that are free. -/
theorem exclusive_grow (h : Exclusive txns) {i : ι} {t : Txn W K} (hfree : Free txns i t.locks) :
    Exclusive (Function.update txns i (some t)) := by
  intro a b x y hab hx hy k hk
  by_cases ha : a = i
  · subst ha
    rw [Function.update_self, Option.some.injEq] at hx
    rw [Function.update_of_ne (Ne.symm hab)] at hy
    subst hx
    exact hfree b (Ne.symm hab) y hy k hk
  · rw [Function.update_of_ne ha] at hx
    by_cases hb : b = i
    · subst hb
      rw [Function.update_self, Option.some.injEq] at hy
      subst hy
      intro hmem
      exact hfree a hab x hx k hmem hk
    · rw [Function.update_of_ne hb] at hy
      exact h a b x y hab hx hy k hk

/-- Ending a transaction frees its locks. -/
theorem exclusive_end (h : Exclusive txns) (i : ι) :
    Exclusive (Function.update txns i none) := by
  intro a b x y hab hx hy
  by_cases ha : a = i
  · subst ha
    simp at hx
  · by_cases hb : b = i
    · subst hb
      simp at hy
    · rw [Function.update_of_ne ha] at hx
      rw [Function.update_of_ne hb] at hy
      exact h a b x y hab hx hy

end

/-- What one transaction has locked, the commit of another does not change. -/
theorem Store.view_stable {S W K V : Type u} {ι : Type v} {M : Store S W K V}
    {txns : ι → Option (Txn W K)} (hx : Exclusive txns) {i j : ι} {t u : Txn W K} (hne : i ≠ j)
    (hi : txns i = some t) (hj : txns j = some u) (hc : M.Covered u) {k : K} (hk : k ∈ t.locks)
    (s : S) : M.view k (M.applyAll s u.writes) = M.view k s :=
  hc.view_commit (hx i j t u hne hi hj k hk) s

end Base
