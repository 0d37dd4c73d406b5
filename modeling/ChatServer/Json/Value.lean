import ChatServer.Base.Utf8
import ChatServer.Common.Types

/-!
# JSON values

`nlohmann::json` as the server uses it. An object is a `std::map`, kept here as
a list of fields in key order; assigning to a key replaces its value.

A double is kept as the text it was scanned from: the server never reads the
value of one and never puts one into a reply.
-/

namespace ChatServer

open Base

theorem str_ascii (s : String) : Utf8.Ascii (str s) := by
  intro b hb
  obtain ⟨c, -, rfl⟩ := List.mem_map.mp hb
  show (UInt8.ofNat (c.toNat % 128)).toNat ≤ 127
  rw [UInt8.toNat_ofNat']
  omega

theorem str_wellFormed (s : String) : Utf8.WellFormed (str s) := Utf8.wellFormed_of_ascii (str_ascii s)

inductive Json where
  | null
  | boolean (b : Bool)
  | numberInteger (i : Int)
  | numberUnsigned (n : Nat)
  | numberFloat (text : Bytes)
  | string (s : Bytes)
  | array (items : List Json)
  | object (fields : List (Bytes × Json))
  deriving Repr

/-- `nlohmann::json::exception`, with the texts of `what()`. `byte` is the
number of bytes the parser had asked for. -/
inductive JsonException where
  | parseError (byte : Nat) (what : Bytes)
  | outOfRange (what : Bytes)
  | typeError (what : Bytes)
  deriving DecidableEq, Repr

namespace JsonException

def what : JsonException → Bytes
  | .parseError _ w => w
  | .outOfRange w => w
  | .typeError w => w

end JsonException

namespace Json

/-- The fields of an object, in key order. -/
abbrev Fields := List (Bytes × Json)

/-- `object[key] = value`. -/
def Fields.set : Fields → Bytes → Json → Fields
  | [], k, v => [(k, v)]
  | (k', v') :: rest, k, v =>
    if k = k' then (k, v) :: rest
    else if k < k' then (k, v) :: (k', v') :: rest
    else (k', v') :: Fields.set rest k v

/-- An object built by assigning one field after the other. -/
def Fields.of (assignments : List (Bytes × Json)) : Fields :=
  assignments.foldl (fun fields kv => Fields.set fields kv.1 kv.2) []

/-- `json.contains(key)` and then `json[key]`; a value that is not an object
contains nothing. -/
def field? : Json → Bytes → Option Json
  | .object fields, k => fields.lookup k
  | _, _ => none

/-- The value of a field that `is_string()`. -/
def string? : Option Json → Option Bytes
  | some (.string s) => some s
  | _ => none

/-- The value of a field that `is_number_integer()`, before conversion. -/
def integer? : Option Json → Option Int
  | some (.numberInteger i) => some i
  | some (.numberUnsigned n) => some n
  | _ => none

/-- `get<std::uint64_t>()`. -/
def toUInt64 (i : Int) : Nat := (i % 2 ^ 64).toNat

/-- `get<std::int64_t>()`: the conversion wraps around. -/
def toInt64 (i : Int) : Int := Int.bmod i (2 ^ 64)

/-- `get<std::int32_t>()`. -/
def toInt32 (i : Int) : Int := Int.bmod i (2 ^ 32)

/-! ## Values whose strings are all UTF-8 -/

mutual

/-- Every string in the value, keys included, is well-formed UTF-8. -/
def Clean : Json → Prop
  | .string s => Utf8.WellFormed s
  | .array items => CleanItems items
  | .object fields => CleanFields fields
  | .null | .boolean _ | .numberInteger _ | .numberUnsigned _ | .numberFloat _ => True

def CleanItems : List Json → Prop
  | [] => True
  | v :: items => Clean v ∧ CleanItems items

def CleanFields : List (Bytes × Json) → Prop
  | [] => True
  | (k, v) :: fields => (Utf8.WellFormed k ∧ Clean v) ∧ CleanFields fields

end

theorem cleanItems_iff {items : List Json} : CleanItems items ↔ ∀ v ∈ items, Clean v := by
  induction items with
  | nil => simp [CleanItems]
  | cons v items ih => simp [CleanItems, ih]

theorem cleanFields_iff {fields : Fields} :
    CleanFields fields ↔ ∀ kv ∈ fields, Utf8.WellFormed kv.1 ∧ Clean kv.2 := by
  induction fields with
  | nil => simp [CleanFields]
  | cons kv fields ih => simp [CleanFields, ih]

theorem CleanFields.set {fields : Fields} (h : CleanFields fields) {k : Bytes} {v : Json}
    (hk : Utf8.WellFormed k) (hv : Clean v) : CleanFields (fields.set k v) := by
  induction fields with
  | nil => exact ⟨⟨hk, hv⟩, trivial⟩
  | cons kv rest ih =>
    unfold Fields.set
    split_ifs with heq hlt
    · exact ⟨⟨hk, hv⟩, h.2⟩
    · exact ⟨⟨hk, hv⟩, h⟩
    · exact ⟨h.1, ih h.2⟩

/-- Assigning clean fields keeps an object clean. -/
theorem CleanFields.foldl_set {assignments : List (Bytes × Json)} (h : CleanFields assignments)
    {fields : Fields} (hf : CleanFields fields) :
    CleanFields (assignments.foldl (fun fields kv => Fields.set fields kv.1 kv.2) fields) := by
  induction assignments generalizing fields with
  | nil => exact hf
  | cons kv rest ih => exact ih h.2 (hf.set h.1.1 h.1.2)

theorem CleanFields.of {assignments : List (Bytes × Json)} (h : CleanFields assignments) :
    CleanFields (Fields.of assignments) := h.foldl_set trivial

/-- What a table answers stands in it. -/
theorem mem_of_lookup {α β : Type} [BEq α] [LawfulBEq α] {l : List (α × β)} {a : α} {b : β}
    (h : l.lookup a = some b) : (a, b) ∈ l := by
  obtain ⟨before, after, hsplit, -⟩ := List.lookup_eq_some_iff.mp h
  rw [hsplit]
  simp

/-- A field of a clean value is clean. -/
theorem Clean.field {j v : Json} {k : Bytes} (h : Clean j) (hf : j.field? k = some v) :
    Clean v := by
  cases j with
  | object fields =>
    exact (cleanFields_iff.mp h (k, v) (mem_of_lookup hf)).2
  | _ => simp [field?] at hf

theorem Clean.string {j : Json} {k s : Bytes} (h : Clean j)
    (hf : string? (j.field? k) = some s) : Utf8.WellFormed s := by
  cases hv : j.field? k with
  | none => simp [hv, string?] at hf
  | some v =>
    rw [hv] at hf
    cases v with
    | string t =>
      obtain rfl : t = s := by simpa [string?] using hf
      exact h.field hv
    | _ => simp [string?] at hf

end Json

end ChatServer
