import ChatServer.Common.Text
import ChatServer.Json.Dump

/-!
# The text of a JSON value

What `dump()` writes when it does not throw. Only ASCII characters are escaped,
so a UTF-8 string is written byte by byte.

* `text` — the text; `dump_eq_text` says that it is the one of `dump`;
* `length_escaped`, `length_textItems` — how long it is.
-/

namespace ChatServer.Json

open Base

/-- How a byte of a UTF-8 string is written. -/
def escapeByte (b : UInt8) : Bytes := if b ≤ 0x7F then escape b.toNat b else [b]

def escaped (s : Bytes) : Bytes := s.flatMap escapeByte

theorem escaped_append (s t : Bytes) : escaped (s ++ t) = escaped s ++ escaped t :=
  List.flatMap_append

theorem escaped_cons (b : UInt8) (s : Bytes) : escaped (b :: s) = escapeByte b ++ escaped s :=
  List.flatMap_cons

theorem escaped_wide {s : Bytes} (h : ∀ b ∈ s, ¬ b ≤ 0x7F) : escaped s = s := by
  induction s with
  | nil => rfl
  | cons b s ih =>
    obtain ⟨hb, hs⟩ := List.forall_mem_cons.mp h
    rw [escaped_cons, escapeByte, if_neg hb, ih hs]
    rfl

mutual

def text : Json → Bytes
  | .null => str "null"
  | .boolean b => if b then str "true" else str "false"
  | .numberInteger i => intText i
  | .numberUnsigned n => natText n
  | .numberFloat text => text
  | .string s => str "\"" ++ escaped s ++ str "\""
  | .array items => str "[" ++ textItems items ++ str "]"
  | .object fields => str "\x7b" ++ textFields fields ++ str "\x7d"

def textItems : List Json → Bytes
  | [] => []
  | v :: items => text v ++ (if items.isEmpty then [] else str ",") ++ textItems items

def textFields : List (Bytes × Json) → Bytes
  | [] => []
  | (k, v) :: fields =>
    str "\"" ++ escaped k ++ str "\":" ++ text v ++ (if fields.isEmpty then [] else str ",") ++
      textFields fields

end

/-! ## Strings -/

/-- The smallest code point prefix a state of the decoder can hold; a complete
code point of several bytes is not ASCII. -/
def leastCodepoint : Nat → Nat
  | 0 => 0x80
  | 2 => 2
  | 3 | 5 | 7 | 8 => 1
  | _ => 0

/-- What a code point prefix stays below. -/
def codepointBound : Nat → Nat
  | 0 => 2 ^ 22
  | 2 => 2 ^ 16
  | 3 => 2 ^ 10
  | 4 | 5 => 2 ^ 4
  | _ => 2 ^ 3

/-- The decoder is inside a character. -/
structure Inside (state codepoint : Nat) : Prop where
  inside : 2 ≤ state ∧ state < 9
  least : leastCodepoint state ≤ codepoint
  bound : codepoint < codepointBound state

/-- The first byte of a character. -/
theorem decode_lead (codep : Nat) (b : UInt8) :
    (b ≤ 0x7F → decode 0 codep b = (0, b.toNat)) ∧
      (¬ b ≤ 0x7F → (decode 0 codep b).1 ≠ 1 →
        Inside (decode 0 codep b).1 (decode 0 codep b).2) := by
  have key : ∀ b : UInt8, (b ≤ 0x7F → decode 0 0 b = (0, b.toNat)) ∧
      (¬ b ≤ 0x7F → (decode 0 0 b).1 ≠ 1 → (2 ≤ (decode 0 0 b).1 ∧ (decode 0 0 b).1 < 9) ∧
        leastCodepoint (decode 0 0 b).1 ≤ (decode 0 0 b).2 ∧
        (decode 0 0 b).2 < codepointBound (decode 0 0 b).1) :=
    Utf8.forall_byte (by decide +kernel)
  have hsame : decode 0 codep b = decode 0 0 b := rfl
  rw [hsame]
  refine ⟨(key b).1, fun hb h1 => ?_⟩
  obtain ⟨hstate, hleast, hbound⟩ := (key b).2 hb h1
  exact ⟨hstate, hleast, hbound⟩

/-- A further byte of a character. -/
theorem Inside.decode {state codepoint : Nat} (h : Inside state codepoint) (b : UInt8)
    (hgood : (decode state codepoint b).1 ≠ 1) :
    ¬ b ≤ 0x7F ∧ (decode state codepoint b).2 = codepoint * 64 + b.toNat % 64 ∧
      (decode state codepoint b).1 < 9 ∧
      leastCodepoint (decode state codepoint b).1 ≤ (decode state codepoint b).2 ∧
      (decode state codepoint b).2 < codepointBound (decode state codepoint b).1 := by
  have key : ∀ b : UInt8, ∀ q : Fin 9, 2 ≤ q.val → (Json.decode q.val 0 b).1 ≠ 1 →
      ¬ b ≤ 0x7F ∧ (Json.decode q.val 0 b).1 < 9 ∧
        leastCodepoint (Json.decode q.val 0 b).1 ≤ leastCodepoint q.val * 64 + b.toNat % 64 ∧
        codepointBound q.val * 64 ≤ codepointBound (Json.decode q.val 0 b).1 ∧
        codepointBound q.val ≤ 2 ^ 16 :=
    Utf8.forall_byte (by decide +kernel)
  have hstate : (Json.decode state codepoint b).1 = (Json.decode state 0 b).1 := rfl
  have hkey := key b ⟨state, h.inside.2⟩ h.inside.1 (hstate ▸ hgood)
  dsimp only at hkey
  obtain ⟨hb, hlt, hleast, hbound, hmax⟩ := hkey
  have hcode : (Json.decode state codepoint b).2 = codepoint * 64 + b.toNat % 64 := by
    have hne : state ≠ 0 := by
      have := h.inside.1
      omega
    have hsmall : codepoint <<< 6 < 2 ^ 32 := by
      rw [Nat.shiftLeft_eq]
      have := h.bound
      omega
    have hmask : b.toNat &&& 0x3F = b.toNat % 64 := Nat.and_two_pow_sub_one_eq_mod b.toNat 6
    show (if state ≠ 0 then _ else _) = _
    rw [if_pos hne, Nat.mod_eq_of_lt hsmall, hmask, Nat.or_comm,
      ← Nat.shiftLeft_add_eq_or_of_lt (b := b.toNat % 64) (i := 6) (by omega), Nat.shiftLeft_eq]
  refine ⟨hb, hcode, hstate ▸ hlt, ?_, ?_⟩
  · rw [hcode, hstate]
    have := h.least
    omega
  · rw [hcode, hstate]
    have := h.bound
    omega

theorem escape_wide {codepoint : Nat} (h : 0x80 ≤ codepoint) (b : UInt8) :
    escape codepoint b = [b] := by
  unfold escape
  split
  all_goals first | omega | rfl | skip
  rw [if_neg (by omega)]

private theorem dumpEscapedFrom_eq (s : Bytes) :
    ∀ (i : Nat) (last : UInt8) (state codepoint : Nat) (out : Bytes),
      state = 0 ∨ Inside state codepoint → Utf8.run (expects state) s = some [] →
      dumpEscapedFrom i last state codepoint out s = .ok (out ++ escaped s) := by
  induction s with
  | nil =>
    intro i last state codepoint out hstate hrun
    have hlt : state < 9 := by
      obtain rfl | h := hstate
      · omega
      · exact h.inside.2
    rw [Utf8.run_nil, expects_eq_accept hlt] at hrun
    rw [dumpEscapedFrom, if_pos hrun]
    exact congrArg Except.ok (List.append_nil out).symm
  | cons b s ih =>
    intro i last state codepoint out hstate hrun
    have hlt : state < 9 := by
      obtain rfl | h := hstate
      · omega
      · exact h.inside.2
    obtain ⟨-, hstep⟩ := decode_sound hlt codepoint b
    rw [Utf8.run_cons, ← hstep] at hrun
    have hgood : (decode state codepoint b).1 ≠ 1 := by
      intro h1
      rw [h1] at hrun
      exact absurd ((Utf8.run_none s).symm.trans hrun) (by simp)
    -- the byte is written as `escapeByte` says, and the decoder stays sound
    have hbyte : ((decode state codepoint b).1 = 0 →
          escape (decode state codepoint b).2 b = escapeByte b) ∧
        ((decode state codepoint b).1 ≠ 0 → [b] = escapeByte b ∧
          Inside (decode state codepoint b).1 (decode state codepoint b).2) := by
      obtain rfl | h := hstate
      · by_cases hascii : b ≤ 0x7F
        · rw [(decode_lead codepoint b).1 hascii, escapeByte, if_pos hascii]
          exact ⟨fun _ => rfl, fun h => absurd rfl h⟩
        · have hin := (decode_lead codepoint b).2 hascii hgood
          refine ⟨fun h0 => ?_, fun _ => ⟨by rw [escapeByte, if_neg hascii], hin⟩⟩
          have := hin.inside.1
          omega
      · obtain ⟨hascii, -, hlt', hleast, hbound⟩ := h.decode b hgood
        rw [escapeByte, if_neg hascii]
        refine ⟨fun h0 => ?_, fun h0 => ⟨rfl, ⟨by omega, hlt'⟩, hleast, hbound⟩⟩
        rw [h0] at hleast
        exact escape_wide hleast b
    rw [dumpEscapedFrom, escaped_cons, ← List.append_assoc]
    cases hd : decode state codepoint b with
    | mk state' codepoint' =>
      rw [hd] at hrun hgood hbyte
      obtain _ | _ | q := state'
      · rw [← hbyte.1 rfl]
        exact ih _ _ _ _ _ (.inl rfl) hrun
      · exact absurd rfl hgood
      · obtain ⟨hwrite, hin⟩ := hbyte.2 (by simp)
        rw [← hwrite]
        exact ih _ _ _ _ _ (.inr hin) hrun

/-- A UTF-8 string is written byte by byte. -/
theorem dumpEscaped_eq {s : Bytes} (h : Utf8.WellFormed s) : dumpEscaped s = .ok (escaped s) := by
  have heq := dumpEscapedFrom_eq s 0 0 0 0 [] (.inl rfl) h
  rwa [List.nil_append] at heq

/-! ## Values -/

mutual

/-- A value whose strings are UTF-8 is written as its text. -/
theorem dump_eq_text : ∀ {j : Json}, Clean j → dump j = .ok (text j)
  | .null, _ | .boolean _, _ | .numberInteger _, _ | .numberUnsigned _, _ | .numberFloat _, _ => by
      rw [dump, text]
  | .string s, h => by
      rw [dump, dumpEscaped_eq h, text]
      rfl
  | .array items, h => by
      rw [dump, dumpItems_eq_text h, text]
      rfl
  | .object fields, h => by
      rw [dump, dumpFields_eq_text h, text]
      rfl

theorem dumpItems_eq_text : ∀ {items : List Json}, CleanItems items →
    dumpItems items = .ok (textItems items)
  | [], _ => by rw [dumpItems, textItems]
  | v :: items, h => by
      rw [dumpItems, dump_eq_text h.1, dumpItems_eq_text h.2, textItems]
      rfl

theorem dumpFields_eq_text : ∀ {fields : List (Bytes × Json)}, CleanFields fields →
    dumpFields fields = .ok (textFields fields)
  | [], _ => by rw [dumpFields, textFields]
  | (k, v) :: fields, h => by
      rw [dumpFields, dumpEscaped_eq h.1.1, dump_eq_text h.1.2, dumpFields_eq_text h.2, textFields]
      rfl

end

/-! ## Lengths -/

/-- How many bytes a byte of a string is written as. -/
def escapeWidth (b : UInt8) : Nat :=
  if b ∈ [0x08, 0x09, 0x0A, 0x0C, 0x0D, 0x22, 0x5C] then 2 else if b ≤ 0x1F then 6 else 1

def escapedLength (s : Bytes) : Nat := (s.map escapeWidth).sum

theorem length_escaped (s : Bytes) : (escaped s).length = escapedLength s := by
  have key : ∀ b : UInt8, (escapeByte b).length = escapeWidth b :=
    Utf8.forall_byte (by decide +kernel)
  induction s with
  | nil => rfl
  | cons b s ih => rw [escaped_cons, List.length_append, key, ih]; rfl

theorem length_le_escapedLength (s : Bytes) : s.length ≤ escapedLength s := by
  have key : ∀ b : UInt8, 1 ≤ escapeWidth b := Utf8.forall_byte (by decide +kernel)
  induction s with
  | nil => exact Nat.le_refl 0
  | cons b s ih =>
    have hb := key b
    show s.length + 1 ≤ escapeWidth b + escapedLength s
    omega

theorem length_textItems (items : List Json) : (textItems items).length =
    (items.map fun v => (text v).length).sum + (items.length - 1) := by
  induction items with
  | nil => rfl
  | cons v items ih =>
    rw [textItems, List.length_append, List.length_append, ih, List.map_cons, List.sum_cons]
    cases items with
    | nil => simp
    | cons v' items => simp [str]; omega

theorem length_textFields_nil : (textFields []).length = 0 := rfl

theorem length_textFields_cons (k : Bytes) (v : Json) (fields : Fields) :
    (textFields ((k, v) :: fields)).length =
      escapedLength k + 3 + (text v).length + (if fields.isEmpty then 0 else 1) +
        (textFields fields).length := by
  have hcomma : (if fields.isEmpty then [] else str ",").length = if fields.isEmpty then 0 else 1 := by
    split <;> rfl
  have hquotes : (str "\"").length = 1 ∧ (str "\":").length = 2 := ⟨rfl, rfl⟩
  simp only [textFields, List.length_append, length_escaped, hcomma, hquotes]
  omega

theorem length_text_string (s : Bytes) : (text (.string s)).length = escapedLength s + 2 := by
  simp only [text, List.length_append, length_escaped]
  show 1 + _ + 1 = _
  omega

theorem length_text_array (items : List Json) :
    (text (.array items)).length = (textItems items).length + 2 := by
  simp only [text, List.length_append]
  show 1 + _ + 1 = _
  omega

theorem length_text_object (fields : Fields) :
    (text (.object fields)).length = (textFields fields).length + 2 := by
  simp only [text, List.length_append]
  show 1 + _ + 1 = _
  omega

/-! ## Texts of one line -/

/-- The text has no line break; doubles aside, no text has. -/
def OneLine (j : Json) : Prop := 0x0A ∉ text j

theorem newline_not_mem_escaped (s : Bytes) : 0x0A ∉ escaped s := by
  have key : ∀ b : UInt8, 0x0A ∉ escapeByte b := Utf8.forall_byte (by decide +kernel)
  intro hmem
  obtain ⟨b, -, hb⟩ := List.mem_flatMap.mp hmem
  exact key b hb

theorem newline_not_mem_natText (n : Nat) : 0x0A ∉ natText n := by
  intro hmem
  have hge : 48 ≤ (0x0A : UInt8).toNat := (natText_digit hmem).1
  exact absurd hge (by decide)

theorem oneLine_unsigned (n : Nat) : OneLine (.numberUnsigned n) := newline_not_mem_natText n

theorem oneLine_integer : ∀ i : Int, OneLine (.numberInteger i)
  | .ofNat n => newline_not_mem_natText n
  | .negSucc k => List.not_mem_cons_of_ne_of_not_mem (by decide) (newline_not_mem_natText (k + 1))

theorem oneLine_boolean (b : Bool) : OneLine (.boolean b) := by
  cases b
  · show 0x0A ∉ str "false"
    decide
  · show 0x0A ∉ str "true"
    decide

theorem oneLine_string (s : Bytes) : OneLine (.string s) := by
  have hquote : 0x0A ∉ str "\"" := by decide
  simp only [OneLine, text, List.mem_append, not_or]
  exact ⟨⟨hquote, newline_not_mem_escaped s⟩, hquote⟩

theorem oneLine_array {items : List Json} (h : ∀ v ∈ items, OneLine v) :
    OneLine (.array items) := by
  have hitems : 0x0A ∉ textItems items := by
    induction items with
    | nil => exact List.not_mem_nil
    | cons v items ih =>
      obtain ⟨hv, hitems⟩ := List.forall_mem_cons.mp h
      have hcomma : 0x0A ∉ (if items.isEmpty then [] else str ",") := by split <;> decide
      simp only [textItems, List.mem_append, not_or]
      exact ⟨⟨hv, hcomma⟩, ih hitems⟩
  simp only [OneLine, text, List.mem_append, not_or]
  exact ⟨⟨by decide, hitems⟩, by decide⟩

theorem oneLine_object {fields : Fields} (h : ∀ kv ∈ fields, OneLine kv.2) :
    OneLine (.object fields) := by
  have hfields : 0x0A ∉ textFields fields := by
    induction fields with
    | nil => exact List.not_mem_nil
    | cons kv fields ih =>
      obtain ⟨hv, hfields⟩ := List.forall_mem_cons.mp h
      have hcomma : 0x0A ∉ (if fields.isEmpty then [] else str ",") := by split <;> decide
      simp only [textFields, List.mem_append, not_or]
      exact ⟨⟨⟨⟨⟨by decide, newline_not_mem_escaped _⟩, by decide⟩, hv⟩, hcomma⟩, ih hfields⟩
  simp only [OneLine, text, List.mem_append, not_or]
  exact ⟨⟨by decide, hfields⟩, by decide⟩

end ChatServer.Json
