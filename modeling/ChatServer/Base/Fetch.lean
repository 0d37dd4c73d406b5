import Mathlib.Data.List.Forall2

/-!
# Rows fetched into bound buffers

A client reads the rows of a result one at a time. The values of a row are copied
into buffers of a fixed size; a value that does not fit makes the fetch fail.

* `fetchAll` — the loop over a result, given up at the first row that does not fit
  or cannot be built;
* `fetchAll_eq_some_iff`, `fetchAll_eq_none_iff` — when it succeeds, and with what.
-/

namespace Base

variable {ρ α : Type}

/-- A value and the size of the buffer it is read into. -/
structure Bound where
  value : List UInt8
  buffer : Nat
  deriving DecidableEq, Repr

def Bound.fits (b : Bound) : Bool := b.value.length ≤ b.buffer

/-- The row is fetched without truncation. -/
def fits (columns : ρ → List Bound) (row : ρ) : Bool := (columns row).all Bound.fits

/-- Fetch all rows and build a value from each. -/
def fetchAll (columns : ρ → List Bound) (build : ρ → Option α) : List ρ → Option (List α)
  | [] => some []
  | row :: rest =>
    if fits columns row then
      match build row with
      | none => none
      | some a => (fetchAll columns build rest).map (a :: ·)
    else none

variable {columns : ρ → List Bound} {build : ρ → Option α} {rows : List ρ} {items : List α}

theorem fits_iff {row : ρ} : fits columns row = true ↔
    ∀ b ∈ columns row, b.value.length ≤ b.buffer := by
  unfold fits Bound.fits
  rw [List.all_eq_true]
  simp only [decide_eq_true_eq]

/-- The loop succeeds if every row fits, with the values built from the rows. -/
theorem fetchAll_eq_some_iff :
    fetchAll columns build rows = some items ↔
      List.Forall₂ (fun row a => fits columns row = true ∧ build row = some a) rows items := by
  induction rows generalizing items with
  | nil =>
    unfold fetchAll
    constructor
    · intro h
      obtain rfl := Option.some.inj h
      exact .nil
    · intro h
      cases h
      rfl
  | cons row rest ih =>
    unfold fetchAll
    constructor
    · intro h
      split at h
      next hfits =>
        split at h
        next => cases h
        next a hbuild =>
          obtain ⟨items', hrest, rfl⟩ := Option.map_eq_some_iff.mp h
          exact .cons ⟨hfits, hbuild⟩ (ih.mp hrest)
      next => cases h
    · intro h
      cases h with
      | cons hrow hrest =>
        rw [if_pos hrow.1, hrow.2]
        exact Option.map_eq_some_iff.mpr ⟨_, ih.mpr hrest, rfl⟩

/-- Rows that fit, taken as they are. -/
theorem fetchAll_some (h : ∀ row ∈ rows, fits columns row = true) :
    fetchAll columns some rows = some rows :=
  fetchAll_eq_some_iff.mpr (List.forall₂_same.mpr fun row hrow => ⟨h row hrow, rfl⟩)

/-- It fails if some row does not fit or cannot be built. -/
theorem fetchAll_eq_none_iff :
    fetchAll columns build rows = none ↔
      ∃ row ∈ rows, fits columns row = false ∨ build row = none := by
  induction rows with
  | nil => simp [fetchAll]
  | cons row rest ih =>
    unfold fetchAll
    cases hfits : fits columns row with
    | false => simp [hfits]
    | true =>
      cases hbuild : build row with
      | none => simp [hbuild]
      | some a => simp [hfits, hbuild, ih]

/-- The values are those built from the rows. -/
theorem mem_of_fetchAll (h : fetchAll columns build rows = some items) {a : α} :
    a ∈ items ↔ ∃ row ∈ rows, build row = some a := by
  have hrows := fetchAll_eq_some_iff.mp h
  clear h
  induction hrows with
  | nil => simp
  | cons hrow _ ih => simp [ih, hrow.2, eq_comm]

end Base
