import ChatServer.Common.Hex
import ChatServer.Common.Text
import ChatServer.Common.Validator

/-!
# Identifiers

Texts of letters, digits, `_` and `-`, as `Validator` accepts them for ids: what
the server makes up itself is one too, none contains a colon, and upper and lower
case of the same text are different identifiers.
-/

namespace ChatServer

open Validator

theorem isValidIdentifier_append {a b : Bytes} : isValidIdentifier (a ++ b) = true ↔
    isValidIdentifier a = true ∧ isValidIdentifier b = true := by
  unfold isValidIdentifier
  rw [List.all_append, Bool.and_eq_true]

theorem isValidIdentifier_of_hexDigits {text : Bytes} (h : HexDigits text) :
    isValidIdentifier text = true := by
  have hdigit : ∀ d : Fin 16, isAlnum (hexChar d) = true := by decide
  refine List.all_eq_true.mpr fun b hb => ?_
  obtain ⟨d, hd, rfl⟩ := h b hb
  rw [show isAlnum (hexChar d) = true from hdigit ⟨d, hd⟩]
  rfl

theorem isAlnum_of_digit {b : UInt8} (h : 48 ≤ b.toNat ∧ b.toNat ≤ 57) : isAlnum b = true :=
  decide_eq_true (.inl ⟨UInt8.le_iff_toNat_le.mpr h.1, UInt8.le_iff_toNat_le.mpr h.2⟩)

theorem isValidIdentifier_natText (n : ℕ) : isValidIdentifier (natText n) = true := by
  refine List.all_eq_true.mpr fun b hb => ?_
  rw [isAlnum_of_digit (natText_digit hb)]
  rfl

theorem isValidIdentifier_intText (i : Int) : isValidIdentifier (intText i) = true := by
  cases i with
  | ofNat n => exact isValidIdentifier_natText n
  | negSucc n =>
    have hminus : isValidIdentifier [45] = true := by decide
    exact (isValidIdentifier_append (a := [45])).mpr ⟨hminus, isValidIdentifier_natText _⟩

/-- What `RequiredIdentifier` accepts is an identifier. -/
theorem isValidIdentifier_of_accepted {field : String} {value : Bytes}
    (h : requiredIdentifier field value = none) : isValidIdentifier value = true := by
  unfold requiredIdentifier at h
  split at h
  · cases h
  · split at h
    · cases h
    · split at h
      · cases h
      next hvalid => simpa using hvalid

/-- A colon ends an identifier. -/
theorem colon_not_mem {value : Bytes} (h : isValidIdentifier value = true) :
    (58 : UInt8) ∉ value := by
  intro hmem
  have hcolon : (isAlnum 58 || (58 : UInt8) == 0x5F || (58 : UInt8) == 0x2D) = false := by decide
  have hok := List.all_eq_true.mp h 58 hmem
  rw [hcolon] at hok
  cases hok

/-! ## Case -/

/-- An ASCII letter in lower case. -/
def lowerByte (b : UInt8) : UInt8 := if 0x41 ≤ b ∧ b ≤ 0x5A then b + 32 else b

/-- The text without regard to case. -/
def foldCase (text : Bytes) : Bytes := text.map lowerByte

theorem foldCase_append (a b : Bytes) : foldCase (a ++ b) = foldCase a ++ foldCase b :=
  List.map_append ..

/-- The digits the server writes are in lower case. -/
theorem foldCase_of_hexDigits {text : Bytes} (h : HexDigits text) : foldCase text = text := by
  have hdigit : ∀ d : Fin 16, lowerByte (hexChar d) = hexChar d := by decide
  refine (List.map_congr_left fun b hb => ?_).trans (List.map_id text)
  obtain ⟨d, hd, rfl⟩ := h b hb
  exact hdigit ⟨d, hd⟩

end ChatServer
