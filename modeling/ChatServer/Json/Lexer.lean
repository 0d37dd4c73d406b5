import Mathlib.Data.List.Basic
import ChatServer.Json.Dump

/-!
# The JSON lexer

`detail::lexer` of the vendored JSON library, reading from a byte string.
`unget` puts the byte back in front of the input. The token buffer, the
position and the text of the current token (`token_string`, quoted by error
messages) are kept as the library keeps them; in particular `token_string` is
restarted only at strings and numbers. The decimal point of the locale is `.`.
-/

namespace ChatServer.Json

open Base

/-- `position_t`. -/
structure Position where
  charsReadTotal : Nat := 0
  charsReadCurrentLine : Nat := 0
  linesRead : Nat := 0
  deriving DecidableEq, Repr

structure Lexer where
  /-- what the input adapter still holds -/
  input : Bytes
  /-- the current character, `none` at the end of the input -/
  current : Option UInt8 := none
  position : Position := {}
  tokenString : Bytes := []
  tokenBuffer : Bytes := []
  deriving DecidableEq, Repr

/-- The lexical errors, named after their messages. -/
inductive LexError where
  | missingClosingQuote
  | fourHexDigits
  | highSurrogateAlone
  | lowSurrogateAlone
  | afterBackslash
  | controlCharacter (b : UInt8)
  | illFormedByte
  | digitAfterMinus
  | digitAfterPoint
  | digitAfterExponent
  | digitAfterExponentSign
  | invalidLiteral
  | invalidBom
  deriving DecidableEq, Repr

/-- The tokens, with their values; `valueFloat` says whether `strtod` returned
a finite number. -/
inductive Token where
  | literalTrue
  | literalFalse
  | literalNull
  | valueString (s : Bytes)
  | valueUnsigned (n : Nat)
  | valueInteger (i : Int)
  | valueFloat (text : Bytes) (finite : Bool)
  | beginArray
  | beginObject
  | endArray
  | endObject
  | nameSeparator
  | valueSeparator
  | parseError (e : LexError)
  | endOfInput
  deriving DecidableEq, Repr

/-- The short names of the control characters. -/
def controlNames : List Bytes :=
  [str "NUL", str "SOH", str "STX", str "ETX", str "EOT", str "ENQ", str "ACK", str "BEL",
    str "BS", str "HT", str "LF", str "VT", str "FF", str "CR", str "SO", str "SI", str "DLE",
    str "DC1", str "DC2", str "DC3", str "DC4", str "NAK", str "SYN", str "ETB", str "CAN",
    str "EM", str "SUB", str "ESC", str "FS", str "GS", str "RS", str "US"]

/-- The short escapes offered in the messages for control characters. -/
def controlEscapes : List (UInt8 × Bytes) :=
  [(0x08, str " or \\b"), (0x09, str " or \\t"), (0x0A, str " or \\n"), (0x0C, str " or \\f"),
    (0x0D, str " or \\r")]

/-- `error_message`. -/
def LexError.text : LexError → Bytes
  | .missingClosingQuote => str "invalid string: missing closing quote"
  | .fourHexDigits => str "invalid string: '\\u' must be followed by 4 hex digits"
  | .highSurrogateAlone =>
    str "invalid string: surrogate U+D800..U+DBFF must be followed by U+DC00..U+DFFF"
  | .lowSurrogateAlone => str "invalid string: surrogate U+DC00..U+DFFF must follow U+D800..U+DBFF"
  | .afterBackslash => str "invalid string: forbidden character after backslash"
  | .controlCharacter b =>
    str "invalid string: control character U+00" ++ hexBytes b ++ str " (" ++
      controlNames.getD b.toNat [] ++ str ") must be escaped to \\u00" ++ hexBytes b ++
      (controlEscapes.lookup b).getD []
  | .illFormedByte => str "invalid string: ill-formed UTF-8 byte"
  | .digitAfterMinus => str "invalid number; expected digit after '-'"
  | .digitAfterPoint => str "invalid number; expected digit after '.'"
  | .digitAfterExponent => str "invalid number; expected '+', '-', or digit after exponent"
  | .digitAfterExponentSign => str "invalid number; expected digit after exponent sign"
  | .invalidLiteral => str "invalid literal"
  | .invalidBom => str "invalid BOM; must be 0xEF 0xBB 0xBF if given"

namespace Lexer

/-! ## Input management -/

/-- `get`. -/
def get (lx : Lexer) : Lexer :=
  match lx.input with
  | [] =>
    { lx with
      current := none
      position := { lx.position with
        charsReadTotal := lx.position.charsReadTotal + 1
        charsReadCurrentLine := lx.position.charsReadCurrentLine + 1 } }
  | b :: rest =>
    { lx with
      input := rest
      current := some b
      position :=
        { charsReadTotal := lx.position.charsReadTotal + 1
          charsReadCurrentLine := if b = 0x0A then 0 else lx.position.charsReadCurrentLine + 1
          linesRead := if b = 0x0A then lx.position.linesRead + 1 else lx.position.linesRead }
      tokenString := lx.tokenString ++ [b] }

/-- `unget`. -/
def unget (lx : Lexer) : Lexer :=
  let position : Position :=
    { charsReadTotal := lx.position.charsReadTotal - 1
      charsReadCurrentLine := lx.position.charsReadCurrentLine - 1
      linesRead :=
        if lx.position.charsReadCurrentLine = 0 then lx.position.linesRead - 1
        else lx.position.linesRead }
  match lx.current with
  | none => { lx with position := position }
  | some b =>
    { lx with
      input := b :: lx.input
      position := position
      tokenString := lx.tokenString.dropLast }

/-- `reset`: the current character is the beginning of a token. -/
def reset (lx : Lexer) : Lexer :=
  { lx with tokenBuffer := [], tokenString := lx.current.toList }

/-- `add`. -/
def add (lx : Lexer) (bytes : Bytes) : Lexer :=
  { lx with tokenBuffer := lx.tokenBuffer ++ bytes }

end Lexer

/-- The result of scanning a part of a token; a lexical error comes with the
lexer as it stopped. -/
abbrev Scan := Except (LexError × Lexer)

/-! ## Strings -/

/-- A hexadecimal digit. -/
def hexValue (b : UInt8) : Option Nat :=
  if 0x30 ≤ b ∧ b ≤ 0x39 then some (b.toNat - 0x30)
  else if 0x41 ≤ b ∧ b ≤ 0x46 then some (b.toNat - 0x37)
  else if 0x61 ≤ b ∧ b ≤ 0x66 then some (b.toNat - 0x57)
  else none

/-- The loop of `get_codepoint` over the factors still to come. -/
def getCodepointFrom : List Nat → Nat → Lexer → Scan (Nat × Lexer)
  | [], codepoint, lx => .ok (codepoint, lx)
  | factor :: factors, codepoint, lx =>
    match lx.get.current.bind hexValue with
    | none => .error (.fourHexDigits, lx.get)
    | some d => getCodepointFrom factors (codepoint + d <<< factor) lx.get

/-- `get_codepoint`. -/
def getCodepoint (lx : Lexer) : Scan (Nat × Lexer) := getCodepointFrom [12, 8, 4, 0] 0 lx

/-- The bytes of a code point, as `scan_string` writes them. -/
def codepointBytes (codepoint : Nat) : Bytes :=
  if codepoint < 0x80 then [.ofNat codepoint]
  else if codepoint ≤ 0x7FF then
    [.ofNat (0xC0 ||| (codepoint >>> 6)), .ofNat (0x80 ||| (codepoint &&& 0x3F))]
  else if codepoint ≤ 0xFFFF then
    [.ofNat (0xE0 ||| (codepoint >>> 12)), .ofNat (0x80 ||| ((codepoint >>> 6) &&& 0x3F)),
      .ofNat (0x80 ||| (codepoint &&& 0x3F))]
  else
    [.ofNat (0xF0 ||| (codepoint >>> 18)), .ofNat (0x80 ||| ((codepoint >>> 12) &&& 0x3F)),
      .ofNat (0x80 ||| ((codepoint >>> 6) &&& 0x3F)), .ofNat (0x80 ||| (codepoint &&& 0x3F))]

/-- The second half of a surrogate pair. -/
def scanLowSurrogate (codepoint1 : Nat) (lx : Lexer) : Scan Lexer :=
  if lx.get.current = some 0x5C then
    if lx.get.get.current = some 0x75 then do
      let (codepoint2, lx) ← getCodepoint lx.get.get
      if 0xDC00 ≤ codepoint2 ∧ codepoint2 ≤ 0xDFFF then
        .ok (lx.add (codepointBytes (codepoint1 <<< 10 + codepoint2 - 0x35FDC00)))
      else .error (.highSurrogateAlone, lx)
    else .error (.highSurrogateAlone, lx.get.get)
  else .error (.highSurrogateAlone, lx.get)

/-- A unicode escape, after `\u`. -/
def scanUnicodeEscape (lx : Lexer) : Scan Lexer := do
  let (codepoint1, lx) ← getCodepoint lx
  if 0xD800 ≤ codepoint1 ∧ codepoint1 ≤ 0xDBFF then scanLowSurrogate codepoint1 lx
  else if 0xDC00 ≤ codepoint1 ∧ codepoint1 ≤ 0xDFFF then .error (.lowSurrogateAlone, lx)
  else .ok (lx.add (codepointBytes codepoint1))

/-- The escapes of one character and what they stand for. -/
def escapes : List (UInt8 × UInt8) :=
  [(0x22, 0x22), (0x5C, 0x5C), (0x2F, 0x2F), (0x62, 0x08), (0x66, 0x0C), (0x6E, 0x0A),
    (0x72, 0x0D), (0x74, 0x09)]

/-- An escape, after the backslash. -/
def scanEscape (lx : Lexer) : Scan Lexer :=
  match lx.get.current with
  | none => .error (.afterBackslash, lx.get)
  | some c =>
    if c = 0x75 then scanUnicodeEscape lx.get
    else
      match escapes.lookup c with
      | some b => .ok (lx.get.add [b])
      | none => .error (.afterBackslash, lx.get)

/-- The loop of `next_byte_in_range`. -/
def nextByteInRange : List Utf8.Range → Lexer → Scan Lexer
  | [], lx => .ok lx
  | r :: ranges, lx =>
    match lx.get.current with
    | none => .error (.illFormedByte, lx.get)
    | some c =>
      if r.1 ≤ c ∧ c ≤ r.2 then nextByteInRange ranges (lx.get.add [c])
      else .error (.illFormedByte, lx.get)

/-- One character of a string, its first byte `c` already read: the body of the
loop of `scan_string`. The lead bytes and the ranges after them are those of
`Utf8.tails`. -/
def scanCharacter (c : UInt8) (lx : Lexer) : Scan Lexer :=
  if c = 0x5C then scanEscape lx
  else if c ≤ 0x1F then .error (.controlCharacter c, lx)
  else
    match Utf8.tails c with
    | some ranges => nextByteInRange ranges (lx.add [c])
    | none => .error (.illFormedByte, lx)

/-! ## Reading

`Reads lx bs lx'` relates the lexer before and after reading `bs`: the bytes
leave the input and join the token text, and the position keeps pointing at the
first unread byte. -/

structure Reads (lx : Lexer) (bs : Bytes) (lx' : Lexer) : Prop where
  input : lx.input = bs ++ lx'.input
  token : lx'.tokenString = lx.tokenString ++ bs
  position : ∀ raw : Bytes, raw.drop lx.position.charsReadTotal = lx.input →
    raw.drop lx'.position.charsReadTotal = lx'.input

namespace Reads

theorem refl (lx : Lexer) : Reads lx [] lx := ⟨rfl, by simp, fun _ h => h⟩

theorem trans {lx lx' lx'' : Lexer} {bs cs : Bytes} (h : Reads lx bs lx') (h' : Reads lx' cs lx'') :
    Reads lx (bs ++ cs) lx'' where
  input := by rw [h.input, h'.input, List.append_assoc]
  token := by rw [h'.token, h.token, List.append_assoc]
  position := fun raw hraw => h'.position raw (h.position raw hraw)

theorem add {lx lx' : Lexer} {bs : Bytes} (h : Reads lx bs lx') (out : Bytes) :
    Reads lx bs (lx'.add out) := ⟨h.input, h.token, h.position⟩

theorem length_le {lx lx' : Lexer} {bs : Bytes} (h : Reads lx bs lx') :
    lx'.input.length ≤ lx.input.length := by
  rw [h.input, List.length_append]
  omega

end Reads

@[simp] theorem get_tokenBuffer (lx : Lexer) : lx.get.tokenBuffer = lx.tokenBuffer := by
  unfold Lexer.get
  split <;> rfl

@[simp] theorem get_current (lx : Lexer) : lx.get.current = lx.input.head? := by
  unfold Lexer.get
  split
  next h => rw [h]; rfl
  next h => rw [h]; rfl

@[simp] theorem get_input (lx : Lexer) : lx.get.input = lx.input.tail := by
  unfold Lexer.get
  split
  next h => simp [h]
  next h => rw [h]; rfl

/-- `get` reads the next byte, if there is one. -/
theorem get_reads (lx : Lexer) : Reads lx lx.get.current.toList lx.get := by
  unfold Lexer.get
  split
  next h =>
    refine ⟨rfl, by simp, fun raw hraw => ?_⟩
    show raw.drop (lx.position.charsReadTotal + 1) = lx.input
    rw [h] at hraw ⊢
    rw [← List.drop_drop, hraw]
    rfl
  next b rest h =>
    refine ⟨h, rfl, fun raw hraw => ?_⟩
    show raw.drop (lx.position.charsReadTotal + 1) = rest
    rw [h] at hraw
    rw [← List.drop_drop, hraw]
    rfl

theorem get_reads_some {lx : Lexer} {b : UInt8} (h : lx.get.current = some b) :
    Reads lx [b] lx.get := by
  have hreads := get_reads lx
  rwa [h] at hreads

/-- A part of a token was scanned: it read some bytes, and on success these and
the lexer meet `Q`. -/
def Scanned (lx : Lexer) (Q : Bytes → Lexer → Prop) : Scan Lexer → Prop
  | .ok lx' => ∃ bs, Reads lx bs lx' ∧ Q bs lx'
  | .error (_, lx') => ∃ bs, Reads lx bs lx'

/-- Scanning may continue where earlier reading stopped. -/
theorem Scanned.after {lx lx' : Lexer} {bs : Bytes} {Q Q' : Bytes → Lexer → Prop} {x : Scan Lexer}
    (hreads : Reads lx bs lx') (h : Scanned lx' Q' x)
    (himp : ∀ cs lx'', Q' cs lx'' → Q (bs ++ cs) lx'') : Scanned lx Q x := by
  match x with
  | .ok lx'' =>
    obtain ⟨cs, hcs, hQ⟩ := h
    exact ⟨bs ++ cs, hreads.trans hcs, himp cs lx'' hQ⟩
  | .error (_, lx'') =>
    obtain ⟨cs, hcs⟩ := h
    exact ⟨bs ++ cs, hreads.trans hcs⟩

/-! ## The characters of a string -/

/-- The buffer grew by UTF-8 text. -/
def Grew (lx lx' : Lexer) : Prop :=
  ∃ out, lx'.tokenBuffer = lx.tokenBuffer ++ out ∧ Utf8.WellFormed out

theorem Grew.of_eq {lx lx₁ lx₂ : Lexer} (h : Grew lx₁ lx₂) (heq : lx₁.tokenBuffer = lx.tokenBuffer) :
    Grew lx lx₂ := by
  obtain ⟨out, hout, hwf⟩ := h
  exact ⟨out, by rw [hout, heq], hwf⟩

/-- The continuation bytes read complete the character. -/
theorem nextByteInRange_scanned (ranges : List Utf8.Range) : ∀ lx : Lexer,
    Scanned lx (fun bs lx' => Utf8.run (some ranges) bs = some [] ∧
      lx'.tokenBuffer = lx.tokenBuffer ++ bs) (nextByteInRange ranges lx) := by
  induction ranges with
  | nil => exact fun lx => ⟨[], .refl lx, rfl, by simp⟩
  | cons r ranges ih =>
    intro lx
    unfold nextByteInRange
    split
    next h =>
      have hreads := get_reads lx
      exact ⟨_, hreads⟩
    next c h =>
      have hreads : Reads lx [c] lx.get := get_reads_some h
      split_ifs with hrange
      · refine (ih (lx.get.add [c])).after (hreads.add [c]) fun cs lx' hQ => ⟨?_, ?_⟩
        · show Utf8.run (Utf8.step (some (r :: ranges)) c) cs = some []
          rw [Utf8.step, if_pos hrange]
          exact hQ.1
        · rw [hQ.2]
          simp [Lexer.add]
      · exact ⟨_, hreads⟩

theorem hexValue_spec {b : UInt8} {d : Nat} (h : hexValue b = some d) : b ≤ 0x7F ∧ d ≤ 15 := by
  have key : ∀ b : UInt8, ∀ d ∈ hexValue b, b ≤ 0x7F ∧ d ≤ 15 :=
    Utf8.forall_byte (by decide +kernel)
  exact key b d h

/-- Hexadecimal digits are ASCII; each factor adds at most fifteen of its
unit. -/
theorem getCodepointFrom_spec (factors : List Nat) : ∀ (codepoint : Nat) (lx : Lexer),
    match getCodepointFrom factors codepoint lx with
    | .ok (codepoint', lx') => ∃ bs, Reads lx bs lx' ∧ Utf8.Ascii bs ∧
        lx'.tokenBuffer = lx.tokenBuffer ∧
        codepoint' ≤ codepoint + (factors.map (15 <<< ·)).sum
    | .error (_, lx') => ∃ bs, Reads lx bs lx' := by
  induction factors with
  | nil => exact fun codepoint lx => ⟨[], .refl lx, Utf8.ascii_nil, rfl, by simp⟩
  | cons factor factors ih =>
    intro codepoint lx
    unfold getCodepointFrom
    cases hd : lx.get.current.bind hexValue with
    | none => exact ⟨_, get_reads lx⟩
    | some d =>
      obtain ⟨b, hb, hval⟩ := Option.bind_eq_some_iff.mp hd
      obtain ⟨hascii, hle⟩ := hexValue_spec hval
      have hreads : Reads lx [b] lx.get := get_reads_some hb
      have hrest := ih (codepoint + d <<< factor) lx.get
      dsimp only
      revert hrest
      cases getCodepointFrom factors (codepoint + d <<< factor) lx.get with
      | error e =>
        rintro ⟨bs, hbs⟩
        exact ⟨_, hreads.trans hbs⟩
      | ok r =>
        rintro ⟨bs, hbs, hall, hbuf, hbound⟩
        refine ⟨_, hreads.trans hbs, ?_, by rw [hbuf, get_tokenBuffer], ?_⟩
        · exact Utf8.ascii_cons_iff.mpr ⟨hascii, hall⟩
        · have hshift : d <<< factor ≤ 15 <<< factor := by
            rw [Nat.shiftLeft_eq, Nat.shiftLeft_eq]
            exact Nat.mul_le_mul_right _ hle
          rw [List.map_cons, List.sum_cons]
          omega

theorem getCodepoint_spec (lx : Lexer) :
    match getCodepoint lx with
    | .ok (codepoint, lx') => ∃ bs, Reads lx bs lx' ∧ Utf8.Ascii bs ∧
        lx'.tokenBuffer = lx.tokenBuffer ∧ codepoint ≤ 0xFFFF
    | .error (_, lx') => ∃ bs, Reads lx bs lx' := by
  have h := getCodepointFrom_spec [12, 8, 4, 0] 0 lx
  unfold getCodepoint
  revert h
  cases getCodepointFrom [12, 8, 4, 0] 0 lx with
  | error e => exact id
  | ok r =>
    rintro ⟨bs, hbs, hall, hbuf, hbound⟩
    exact ⟨bs, hbs, hall, hbuf, Nat.le_trans hbound (by decide)⟩

/-- The bit operations of `scan_string` write the encoding of the code point. -/
theorem codepointBytes_eq_encode {c : Nat} (hc : c ≤ 0x10FFFF) :
    codepointBytes c = Utf8.encode c := by
  have hcont : ∀ n : Nat, 0x80 ||| (n &&& 0x3F) = 0x80 + n % 64 := by
    intro n
    have hand : n &&& 0x3F = n % 64 := Nat.and_two_pow_sub_one_eq_mod n 6
    have hor := Nat.shiftLeft_add_eq_or_of_lt (a := 2) (b := n % 64) (i := 6) (by omega)
    rw [hand]
    exact hor.symm
  have hshift : ∀ k : Nat, c >>> k = c / 2 ^ k := Nat.shiftRight_eq_div_pow c
  unfold codepointBytes Utf8.encode
  simp only [hcont, hshift, Nat.reducePow]
  split_ifs with h1 h2 h3 h4 h5 h6 h7
  · rfl
  · have hlead := Nat.shiftLeft_add_eq_or_of_lt (a := 3) (b := c / 64) (i := 6) (by omega)
    rw [show (0xC0 : Nat) ||| c / 64 = 0xC0 + c / 64 from hlead.symm]
  · omega
  · omega
  · omega
  · have hlead := Nat.shiftLeft_add_eq_or_of_lt (a := 14) (b := c / 4096) (i := 4) (by omega)
    rw [show (0xE0 : Nat) ||| c / 4096 = 0xE0 + c / 4096 from hlead.symm]
  · omega
  · omega
  · omega
  · have hlead := Nat.shiftLeft_add_eq_or_of_lt (a := 30) (b := c / 262144) (i := 3) (by omega)
    rw [show (0xF0 : Nat) ||| c / 262144 = 0xF0 + c / 262144 from hlead.symm]

/-- A scalar value is added as UTF-8. -/
theorem grew_codepoint {c : Nat} (hc : c < 0xD800 ∨ 0xDFFF < c) (hmax : c ≤ 0x10FFFF)
    {lx lx' : Lexer} (hbuf : lx'.tokenBuffer = lx.tokenBuffer) :
    Grew lx (lx'.add (codepointBytes c)) := by
  refine ⟨codepointBytes c, by rw [Lexer.add, hbuf], ?_⟩
  rw [codepointBytes_eq_encode hmax]
  exact Utf8.wellFormed_encode hc hmax

/-- An escape reads ASCII text and adds UTF-8. -/
def Escaped (lx : Lexer) (bs : Bytes) (lx' : Lexer) : Prop := Utf8.Ascii bs ∧ Grew lx lx'

theorem Scanned.escaped_after {lx lx' : Lexer} {bs : Bytes} {x : Scan Lexer}
    (hreads : Reads lx bs lx') (hascii : Utf8.Ascii bs) (hbuf : lx'.tokenBuffer = lx.tokenBuffer)
    (h : Scanned lx' (Escaped lx') x) : Scanned lx (Escaped lx) x := by
  exact h.after hreads fun cs lx'' hQ =>
    ⟨Utf8.ascii_append_iff.mpr ⟨hascii, hQ.1⟩, hQ.2.of_eq hbuf⟩

theorem scanLowSurrogate_scanned {codepoint1 : Nat} (h1 : 0xD800 ≤ codepoint1)
    (h2 : codepoint1 ≤ 0xDBFF) (lx : Lexer) :
    Scanned lx (Escaped lx) (scanLowSurrogate codepoint1 lx) := by
  unfold scanLowSurrogate
  split_ifs with hslash hu
  · have hfirst : Reads lx [0x5C] lx.get := get_reads_some hslash
    have hsecond : Reads lx.get [0x75] lx.get.get := get_reads_some hu
    refine Scanned.escaped_after (hfirst.trans hsecond) (by decide +kernel) (by simp) ?_
    have hspec := getCodepoint_spec lx.get.get
    revert hspec
    cases getCodepoint lx.get.get with
    | error e => exact id
    | ok r =>
      obtain ⟨codepoint2, lx'⟩ := r
      rintro ⟨bs, hbs, hascii, hbuf, -⟩
      show Scanned _ _ (if _ then _ else _)
      split_ifs with hlow
      · refine ⟨bs, hbs.add _, hascii, grew_codepoint (.inr ?_) ?_ hbuf⟩
        · rw [Nat.shiftLeft_eq]
          omega
        · rw [Nat.shiftLeft_eq]
          omega
      · exact ⟨bs, hbs⟩
  · exact ⟨_, (get_reads lx).trans (get_reads lx.get)⟩
  · exact ⟨_, get_reads lx⟩

theorem scanUnicodeEscape_scanned (lx : Lexer) : Scanned lx (Escaped lx) (scanUnicodeEscape lx) := by
  have hspec := getCodepoint_spec lx
  unfold scanUnicodeEscape
  revert hspec
  cases getCodepoint lx with
  | error e => exact id
  | ok r =>
    obtain ⟨codepoint1, lx'⟩ := r
    rintro ⟨bs, hbs, hascii, hbuf, hmax⟩
    show Scanned _ _ (if _ then _ else if _ then _ else _)
    split_ifs with hhigh hlow
    · exact (scanLowSurrogate_scanned hhigh.1 hhigh.2 lx').escaped_after hbs hascii hbuf
    · exact ⟨bs, hbs⟩
    · exact ⟨bs, hbs.add _, hascii, grew_codepoint (by omega) (by omega) hbuf⟩

theorem scanEscape_scanned (lx : Lexer) : Scanned lx (Escaped lx) (scanEscape lx) := by
  unfold scanEscape
  split
  next h => exact ⟨_, get_reads lx⟩
  next c h =>
    have hreads : Reads lx [c] lx.get := get_reads_some h
    split_ifs with hu
    · rw [hu] at hreads
      exact (scanUnicodeEscape_scanned lx.get).escaped_after hreads (by decide +kernel) (by simp)
    · split
      next b hb =>
        have htable : escapes.all fun cb => decide (cb.1 ≤ 0x7F ∧ cb.2 ≤ 0x7F) := by decide +kernel
        obtain ⟨hc, hb⟩ := of_decide_eq_true (List.all_eq_true.mp htable (c, b) (mem_of_lookup hb))
        exact ⟨[c], hreads.add _, Utf8.ascii_cons_iff.mpr ⟨hc, Utf8.ascii_nil⟩, [b], by simp [Lexer.add],
          Utf8.wellFormed_of_ascii (Utf8.ascii_cons_iff.mpr ⟨hb, Utf8.ascii_nil⟩)⟩
      next hb => exact ⟨_, hreads⟩

/-- One character of a string: the bytes read complete `c` to UTF-8 text, and
so is what they stand for. -/
theorem scanCharacter_scanned (c : UInt8) (lx : Lexer) :
    Scanned lx (fun bs lx' => Utf8.WellFormed (c :: bs) ∧ Grew lx lx') (scanCharacter c lx) := by
  unfold scanCharacter
  split_ifs with hslash hcontrol
  · refine (scanEscape_scanned lx).after (.refl lx) fun bs lx' hQ => ⟨?_, hQ.2⟩
    rw [hslash]
    exact Utf8.wellFormed_of_ascii (Utf8.ascii_cons_iff.mpr ⟨by decide, hQ.1⟩)
  · exact ⟨[], .refl lx⟩
  · split
    next ranges htails =>
      refine (nextByteInRange_scanned ranges (lx.add [c])).after ((Reads.refl lx).add [c]) ?_
      rintro bs lx' ⟨hrun, hbuf⟩
      have hwf : Utf8.WellFormed (c :: bs) := by
        show Utf8.run (Utf8.tails c) bs = some []
        rw [htails]
        exact hrun
      exact ⟨hwf, c :: bs, by rw [hbuf]; simp [Lexer.add], hwf⟩
    next htails => exact ⟨[], .refl lx⟩

end ChatServer.Json
