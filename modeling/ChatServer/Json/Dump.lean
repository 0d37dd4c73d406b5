import Mathlib.Tactic.SplitIfs
import ChatServer.Json.Value

/-!
# Writing JSON

`json::dump()` without indentation, `ensure_ascii` off and the strict error
handler: a string that is not UTF-8 makes it throw. `decode` and its table are
those of the library; `decode_sound` identifies the table with the automaton of
`Base.Utf8`, so that `dump_isOk` says exactly which values can be written.
-/

namespace ChatServer.Json

open Base

/-! ## `serializer::decode` -/

/-- The first half of the table `utf8d`: the class of each byte. -/
def utf8Class (byte : UInt8) : Nat :=
  if byte ≤ 0x7F then 0
  else if byte ≤ 0x8F then 1
  else if byte ≤ 0x9F then 9
  else if byte ≤ 0xBF then 7
  else if byte ≤ 0xC1 then 8
  else if byte ≤ 0xDF then 2
  else
    [0xA, 0x3, 0x3, 0x3, 0x3, 0x3, 0x3, 0x3, 0x3, 0x3, 0x3, 0x3, 0x3, 0x4, 0x3, 0x3,       -- E0..EF
      0xB, 0x6, 0x6, 0x6, 0x5, 0x8, 0x8, 0x8, 0x8, 0x8, 0x8, 0x8, 0x8, 0x8, 0x8, 0x8].getD -- F0..FF
      (byte.toNat - 0xE0) 0

/-- The second half of `utf8d`: a row of sixteen classes for each state. -/
def utf8Rows : List (List Nat) :=
  [[0x0, 0x1, 0x2, 0x3, 0x5, 0x8, 0x7, 0x1, 0x1, 0x1, 0x4, 0x6, 0x1, 0x1, 0x1, 0x1],
    [1, 1, 1, 1, 1, 1, 1, 1, 1, 1, 1, 1, 1, 1, 1, 1],
    [1, 0, 1, 1, 1, 1, 1, 0, 1, 0, 1, 1, 1, 1, 1, 1],
    [1, 2, 1, 1, 1, 1, 1, 2, 1, 2, 1, 1, 1, 1, 1, 1],
    [1, 1, 1, 1, 1, 1, 1, 2, 1, 1, 1, 1, 1, 1, 1, 1],
    [1, 2, 1, 1, 1, 1, 1, 1, 1, 2, 1, 1, 1, 1, 1, 1],
    [1, 1, 1, 1, 1, 1, 1, 3, 1, 3, 1, 1, 1, 1, 1, 1],
    [1, 3, 1, 1, 1, 1, 1, 3, 1, 3, 1, 1, 1, 1, 1, 1],
    [1, 3, 1, 1, 1, 1, 1, 1, 1, 1, 1, 1, 1, 1, 1, 1]]

/-- `decode`: the next state and the code point so far. -/
def decode (state codep : Nat) (byte : UInt8) : Nat × Nat :=
  let type := utf8Class byte
  ((utf8Rows.getD state []).getD type 1,
    if state ≠ 0 then (byte.toNat &&& 0x3f) ||| ((codep <<< 6) % 2 ^ 32)
    else (0xFF >>> type) &&& byte.toNat)

/-! ## `serializer::dump_escaped` -/

/-- `hex_bytes`, and the digits of `%04x` and `%.4X`. -/
def hexDigit (upper : Bool) (d : Nat) : UInt8 :=
  .ofNat (if d < 10 then 48 + d else if upper then 55 + d else 87 + d)

def hexBytes (b : UInt8) : Bytes := [hexDigit true (b.toNat / 16), hexDigit true (b.toNat % 16)]

/-- A completed code point whose last byte is `byte`. -/
def escape (codepoint : Nat) (byte : UInt8) : Bytes :=
  match codepoint with
  | 0x08 => str "\\b"
  | 0x09 => str "\\t"
  | 0x0A => str "\\n"
  | 0x0C => str "\\f"
  | 0x0D => str "\\r"
  | 0x22 => str "\\\""
  | 0x5C => str "\\\\"
  | _ =>
    if codepoint ≤ 0x1F then
      str "\\u00" ++ [hexDigit false (codepoint / 16), hexDigit false (codepoint % 16)]
    else [byte]

def typeError316 (text : Bytes) : JsonException :=
  .typeError (str "[json.exception.type_error.316] " ++ text)

/-- The loop of `dump_escaped` at index `i`; `last` is the byte before it. -/
def dumpEscapedFrom (i : Nat) (last : UInt8) (state codepoint : Nat) (out : Bytes) :
    Bytes → Except JsonException Bytes
  | [] =>
    if state = 0 then .ok out
    else .error (typeError316 (str "incomplete UTF-8 string; last byte: 0x" ++ hexBytes last))
  | byte :: rest =>
    match decode state codepoint byte with
    | (0, codepoint') =>
      dumpEscapedFrom (i + 1) byte 0 codepoint' (out ++ escape codepoint' byte) rest
    | (1, _) =>
      .error (typeError316
        (str "invalid UTF-8 byte at index " ++ natText i ++ str ": 0x" ++ hexBytes byte))
    | (state', codepoint') =>
      dumpEscapedFrom (i + 1) byte state' codepoint' (out ++ [byte]) rest

/-- `dump_escaped`. -/
def dumpEscaped (s : Bytes) : Except JsonException Bytes := dumpEscapedFrom 0 0 0 0 [] s

/-! ## `serializer::dump` -/

mutual

/-- `dump()`. -/
def dump : Json → Except JsonException Bytes
  | .null => .ok (str "null")
  | .boolean b => .ok (if b then str "true" else str "false")
  | .numberInteger i => .ok (intText i)
  | .numberUnsigned n => .ok (natText n)
  | .numberFloat text => .ok text
  | .string s => do return str "\"" ++ (← dumpEscaped s) ++ str "\""
  | .array items => do return str "[" ++ (← dumpItems items) ++ str "]"
  | .object fields => do return str "\x7b" ++ (← dumpFields fields) ++ str "\x7d"

/-- The elements of an array, with commas between them. -/
def dumpItems : List Json → Except JsonException Bytes
  | [] => .ok []
  | v :: items => do
      let first ← dump v
      let rest ← dumpItems items
      return first ++ (if items.isEmpty then [] else str ",") ++ rest

/-- The fields of an object. -/
def dumpFields : List (Bytes × Json) → Except JsonException Bytes
  | [] => .ok []
  | (k, v) :: fields => do
      let key ← dumpEscaped k
      let value ← dump v
      let rest ← dumpFields fields
      return str "\"" ++ key ++ str "\":" ++ value ++ (if fields.isEmpty then [] else str ",") ++ rest

end

/-! ## What can be written -/

/-- What a state of the table still waits for. -/
def expects : Nat → Utf8.State
  | 0 => some []
  | 2 => some [Utf8.tail]
  | 3 => some [Utf8.tail, Utf8.tail]
  | 4 => some [(0xA0, 0xBF), Utf8.tail]
  | 5 => some [(0x80, 0x9F), Utf8.tail]
  | 6 => some [(0x90, 0xBF), Utf8.tail, Utf8.tail]
  | 7 => some [Utf8.tail, Utf8.tail, Utf8.tail]
  | 8 => some [(0x80, 0x8F), Utf8.tail, Utf8.tail]
  | _ => none

/-- The table is the automaton: a row for each of its states. -/
theorem decode_sound {state : Nat} (hstate : state < 9) (codep : Nat) (b : UInt8) :
    (decode state codep b).1 < 9 ∧
      expects (decode state codep b).1 = Utf8.step (expects state) b := by
  have key : ∀ b : UInt8, ∀ q : Fin 9, (decode q.val 0 b).1 < 9 ∧
      expects (decode q.val 0 b).1 = Utf8.step (expects q.val) b :=
    Utf8.forall_byte (by decide +kernel)
  exact key b ⟨state, hstate⟩

theorem expects_eq_accept {state : Nat} (hstate : state < 9) : expects state = some [] ↔ state = 0 := by
  have key : ∀ q : Fin 9, expects q.val = some [] ↔ q.val = 0 := by decide
  exact key ⟨state, hstate⟩

private theorem dumpEscapedFrom_isOk (s : Bytes) :
    ∀ (i : Nat) (last : UInt8) (state codepoint : Nat) (out : Bytes), state < 9 →
      ((dumpEscapedFrom i last state codepoint out s).isOk = true ↔
        Utf8.run (expects state) s = some []) := by
  induction s with
  | nil =>
    intro i last state codepoint out hstate
    rw [Utf8.run_nil, expects_eq_accept hstate, dumpEscapedFrom]
    split_ifs with h
    · exact ⟨fun _ => h, fun _ => rfl⟩
    · exact ⟨fun hok => absurd hok (by simp [Except.isOk, Except.toBool]), fun h0 => absurd h0 h⟩
  | cons b s ih =>
    intro i last state codepoint out hstate
    obtain ⟨hlt, hstep⟩ := decode_sound hstate codepoint b
    rw [Utf8.run_cons, ← hstep, dumpEscapedFrom]
    cases hd : decode state codepoint b with
    | mk state' codepoint' =>
      rw [hd] at hlt
      match state', hlt with
      | 0, hlt => exact ih _ _ _ _ _ hlt
      | 1, _ =>
        have hrun : Utf8.run (expects 1) s = none := Utf8.run_none s
        rw [hrun]
        simp [Except.isOk, Except.toBool]
      | q + 2, hlt => exact ih _ _ _ _ _ hlt

/-- `dump_escaped` throws exactly on strings that are not UTF-8. -/
theorem dumpEscaped_isOk {s : Bytes} : (dumpEscaped s).isOk = true ↔ Utf8.WellFormed s :=
  dumpEscapedFrom_isOk s 0 0 0 0 [] (by omega)

/-- What follows a step that may throw runs only when the step returns. -/
private theorem isOk_bind {α β : Type} {x : Except JsonException α}
    {f : α → Except JsonException β} {P : Prop} (h : ∀ a, (f a).isOk = true ↔ P) :
    (x >>= f).isOk = true ↔ x.isOk = true ∧ P := by
  cases x with
  | error e => simp [bind, Except.bind, Except.isOk, Except.toBool]
  | ok a =>
    have hx : (Except.ok a : Except JsonException α).isOk = true := rfl
    rw [hx]
    exact (h a).trans (by simp)

private theorem isOk_pure {α : Type} (a : α) :
    (pure a : Except JsonException α).isOk = true ↔ True := by simp [pure, Except.pure, Except.isOk,
      Except.toBool]

mutual

/-- `dump()` throws exactly when a string of the value is not UTF-8. -/
theorem dump_isOk : ∀ j : Json, (dump j).isOk = true ↔ Clean j
  | .null | .boolean _ | .numberInteger _ | .numberUnsigned _ | .numberFloat _ => by
      simp [dump, Clean, Except.isOk, Except.toBool]
  | .string s => by
      rw [dump, isOk_bind fun _ => isOk_pure _, dumpEscaped_isOk, Clean, and_true]
  | .array items => by
      rw [dump, isOk_bind fun _ => isOk_pure _, dumpItems_isOk items, Clean, and_true]
  | .object fields => by
      rw [dump, isOk_bind fun _ => isOk_pure _, dumpFields_isOk fields, Clean, and_true]

theorem dumpItems_isOk : ∀ items : List Json, (dumpItems items).isOk = true ↔ CleanItems items
  | [] => by simp [dumpItems, CleanItems, Except.isOk, Except.toBool]
  | v :: items => by
      rw [dumpItems, isOk_bind fun _ => isOk_bind fun _ => isOk_pure _, dump_isOk v,
        dumpItems_isOk items, CleanItems, and_true]

theorem dumpFields_isOk : ∀ fields : List (Bytes × Json),
    (dumpFields fields).isOk = true ↔ CleanFields fields
  | [] => by simp [dumpFields, CleanFields, Except.isOk, Except.toBool]
  | (k, v) :: fields => by
      rw [dumpFields, isOk_bind fun _ => isOk_bind fun _ => isOk_bind fun _ => isOk_pure _,
        dumpEscaped_isOk, dump_isOk v, dumpFields_isOk fields, CleanFields, and_true, and_assoc]

end

end ChatServer.Json
