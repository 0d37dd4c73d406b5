import ChatServer.Json.Lexer

/-!
# Tokens

The functions of the lexer that scan a whole token, and `scan` itself. Every
loop reads at least one byte per round, which is what their recursion is on.

`Tracks` is the invariant of the lexer between two calls of `scan`;
`scan_spec` says what `scan` does to it.
-/

namespace ChatServer.Json

open Base

/-! ## Strings -/

/-- The loop of `scan_string`. -/
def scanStringFrom (lx : Lexer) : Token × Lexer :=
  match _hin : lx.input with
  | [] => (.parseError .missingClosingQuote, lx.get)
  | c :: _ =>
    if c = 0x22 then (.valueString lx.get.tokenBuffer, lx.get)
    else
      match _hscan : scanCharacter c lx.get with
      | .error (e, lx') => (.parseError e, lx')
      | .ok lx' => scanStringFrom lx'
termination_by lx.input.length
decreasing_by
  have hspec := scanCharacter_scanned c lx.get
  rw [_hscan] at hspec
  obtain ⟨bs, hbs, -⟩ := hspec
  have hle := hbs.length_le
  rw [get_input, _hin, List.tail_cons] at hle
  rw [_hin, List.length_cons]
  omega

/-- `scan_string`. -/
def scanString (lx : Lexer) : Token × Lexer := scanStringFrom lx.reset

/-! ## Numbers -/

/-- The labels of `scan_number`. -/
inductive NumberState where
  | minus
  | zero
  | any1
  | decimal1
  | decimal2
  | exponent
  | sign
  | any2
  deriving DecidableEq, Repr

def isDigit (b : UInt8) : Bool := decide (0x30 ≤ b ∧ b ≤ 0x39)

namespace NumberState

/-- The label a character leads to; `none` leaves the machine. -/
def next (st : NumberState) (b : UInt8) : Option NumberState :=
  let exponentMark : Bool := b = 0x65 ∨ b = 0x45
  match st with
  | minus => if b = 0x30 then some zero else if isDigit b then some any1 else none
  | zero => if b = 0x2E then some decimal1 else if exponentMark then some exponent else none
  | any1 =>
    if isDigit b then some any1
    else if b = 0x2E then some decimal1
    else if exponentMark then some exponent
    else none
  | decimal1 => if isDigit b then some decimal2 else none
  | decimal2 =>
    if isDigit b then some decimal2 else if exponentMark then some exponent else none
  | exponent =>
    if b = 0x2B ∨ b = 0x2D then some sign else if isDigit b then some any2 else none
  | sign => if isDigit b then some any2 else none
  | any2 => if isDigit b then some any2 else none

/-- Why a number cannot end here; `none` where it can. -/
def error : NumberState → Option LexError
  | minus => some .digitAfterMinus
  | decimal1 => some .digitAfterPoint
  | exponent => some .digitAfterExponent
  | sign => some .digitAfterExponentSign
  | zero | any1 | decimal2 | any2 => none

/-- The label after the first character of a number. -/
def first (b : UInt8) : NumberState := if b = 0x2D then minus else if b = 0x30 then zero else any1

end NumberState

/-- The type a number has got so far. -/
inductive NumberType where
  | unsigned
  | integer
  | float
  deriving DecidableEq, Repr

/-- What entering a label does to the type. -/
def NumberType.enter (type : NumberType) : NumberState → NumberType
  | .minus => .integer
  | .decimal1 | .exponent => .float
  | .zero | .any1 | .decimal2 | .sign | .any2 => type

/-- The state machine of `scan_number`, up to `scan_number_done`. -/
def scanNumberFrom (st : NumberState) (type : NumberType) (lx : Lexer) :
    Scan (NumberType × Lexer) :=
  match _hin : lx.input with
  | [] =>
    match st.error with
    | some e => .error (e, lx.get)
    | none => .ok (type, lx.get.unget)
  | b :: _ =>
    match st.next b with
    | some st' => scanNumberFrom st' (type.enter st') (lx.get.add [b])
    | none =>
      match st.error with
      | some e => .error (e, lx.get)
      | none => .ok (type, lx.get.unget)
termination_by lx.input.length
decreasing_by
  show lx.get.input.length < lx.input.length
  rw [get_input, _hin, List.tail_cons, List.length_cons]
  omega

/-- The value of a string of digits. -/
def digitsValue (digits : Bytes) : Nat := digits.foldl (fun n b => n * 10 + (b.toNat - 48)) 0

/-- `strtod` gives infinity: the number is at least halfway between the largest
double and the next power of two. The first two cases keep the comparison
small. -/
def overflows (text : Bytes) : Bool :=
  let mantissa := text.takeWhile (fun b => b ≠ 0x65 ∧ b ≠ 0x45)
  let exponentText := (text.dropWhile (fun b => b ≠ 0x65 ∧ b ≠ 0x45)).drop 1
  let fraction := ((mantissa.dropWhile (· ≠ 0x2E)).drop 1).length
  let digits := digitsValue (mantissa.filter isDigit)
  let exponent : Int := digitsValue (exponentText.filter isDigit)
  let exponent : Int := (if exponentText.head? = some 0x2D then -exponent else exponent) - fraction
  let magnitude : Int := (natText digits).length + exponent
  let limit : Nat := 2 ^ 1024 - 2 ^ 970
  if digits = 0 then false
  else if magnitude > 309 then true
  else if magnitude < 309 then false
  else if 0 ≤ exponent then decide (limit ≤ digits * 10 ^ exponent.toNat)
  else decide (limit * 10 ^ (-exponent).toNat ≤ digits)

/-- The conversion after `scan_number_done`: an integer that does not fit
becomes a double. -/
def numberToken (type : NumberType) (buffer : Bytes) : Token :=
  let magnitude := digitsValue (buffer.filter isDigit)
  match type with
  | .unsigned =>
    if magnitude < 2 ^ 64 then .valueUnsigned magnitude
    else .valueFloat buffer (!overflows buffer)
  | .integer =>
    if magnitude ≤ 2 ^ 63 then .valueInteger (-magnitude)
    else .valueFloat buffer (!overflows buffer)
  | .float => .valueFloat buffer (!overflows buffer)

/-- `scan_number`, entered at the character `b`. -/
def scanNumber (b : UInt8) (lx : Lexer) : Token × Lexer :=
  let st := NumberState.first b
  match scanNumberFrom st (NumberType.unsigned.enter st) (lx.reset.add [b]) with
  | .ok (type, lx') => (numberToken type lx'.tokenBuffer, lx')
  | .error (e, lx') => (.parseError e, lx')

/-! ## Literals and white space -/

/-- `scan_literal`, with the part of the literal still to come. -/
def scanLiteral (t : Token) : Bytes → Lexer → Token × Lexer
  | [], lx => (t, lx)
  | c :: rest, lx =>
    if lx.get.current = some c then scanLiteral t rest lx.get
    else (.parseError .invalidLiteral, lx.get)

def isWhitespace (b : UInt8) : Bool := b = 0x20 ∨ b = 0x09 ∨ b = 0x0A ∨ b = 0x0D

/-- `skip_whitespace`: the current character is the first that is none. -/
def skipWhitespace (lx : Lexer) : Lexer :=
  match _hin : lx.input with
  | [] => lx.get
  | b :: _ => if isWhitespace b then skipWhitespace lx.get else lx.get
termination_by lx.input.length
decreasing_by
  rw [get_input, _hin, List.tail_cons, List.length_cons]
  omega

/-- `skip_bom`. -/
def skipBom (lx : Lexer) : Bool × Lexer :=
  if lx.get.current = some 0xEF then
    if lx.get.get.current = some 0xBB then
      (lx.get.get.get.current = some 0xBF, lx.get.get.get)
    else (false, lx.get.get)
  else (true, lx.get.unget)

/-- The cases of `scan` that return at once. A null byte ends the input. -/
def structural : List (UInt8 × Token) :=
  [(0x5B, .beginArray), (0x5D, .endArray), (0x7B, .beginObject), (0x7D, .endObject),
    (0x3A, .nameSeparator), (0x2C, .valueSeparator), (0x00, .endOfInput)]

/-- The literals: first character, token and what must follow. -/
def literals : List (UInt8 × Token × Bytes) :=
  [(0x74, .literalTrue, str "rue"), (0x66, .literalFalse, str "alse"),
    (0x6E, .literalNull, str "ull")]

/-- The switch of `scan` on the current character. -/
def scanToken (lx : Lexer) : Token × Lexer :=
  match lx.current with
  | none => (.endOfInput, lx)
  | some b =>
    match structural.lookup b with
    | some t => (t, lx)
    | none =>
      match literals.lookup b with
      | some (t, rest) => scanLiteral t rest lx
      | none =>
        if b = 0x22 then scanString lx
        else if b = 0x2D ∨ isDigit b then scanNumber b lx
        else (.parseError .invalidLiteral, lx)

/-- `scan`, with comments not ignored. -/
def scan (lx : Lexer) : Token × Lexer :=
  if lx.position.charsReadTotal = 0 then
    match skipBom lx with
    | (true, lx) => scanToken (skipWhitespace lx)
    | (false, lx) => (.parseError .invalidBom, lx)
  else scanToken (skipWhitespace lx)

/-! ## The invariant of the lexer -/

/-- The lexer stands in the text `raw`: the position points at the first unread
byte, and what was read before the current token text is UTF-8. -/
structure Tracks (raw : Bytes) (lx : Lexer) : Prop where
  position : raw.drop lx.position.charsReadTotal = lx.input
  split : ∃ before, raw = before ++ lx.tokenString ++ lx.input ∧ Utf8.WellFormed before

variable {raw bs : Bytes} {lx lx' : Lexer} {P : Prop} {b : UInt8}

theorem Tracks.reads (h : Tracks raw lx) (hr : Reads lx bs lx') : Tracks raw lx' := by
  obtain ⟨before, hsplit, hwf⟩ := h.split
  refine ⟨hr.position raw h.position, before, ?_, hwf⟩
  rw [hsplit, hr.token, hr.input]
  simp only [List.append_assoc]

/-- The bytes asked for so far are as well formed as the current token text. -/
theorem Tracks.wellFormed_iff (h : Tracks raw lx) :
    Utf8.WellFormed (raw.take lx.position.charsReadTotal) ↔ Utf8.WellFormed lx.tokenString := by
  obtain ⟨before, hsplit, hwf⟩ := h.split
  have htake : raw.take lx.position.charsReadTotal = before ++ lx.tokenString := by
    have hboth := List.take_append_drop lx.position.charsReadTotal raw
    rw [h.position] at hboth
    exact List.append_cancel_right (hboth.trans hsplit)
  rw [htake]
  exact Utf8.wellFormed_append_iff hwf _

/-- A token was scanned: unless it is an error, the text read is UTF-8, and so
is the value of a string. -/
structure TokenOk (t : Token) (lx : Lexer) : Prop where
  text : (∀ e, t ≠ .parseError e) → Utf8.WellFormed lx.tokenString
  value : ∀ s, t = .valueString s → Utf8.WellFormed s

theorem TokenOk.error (e : LexError) (lx : Lexer) : TokenOk (.parseError e) lx :=
  ⟨fun h => absurd rfl (h e), fun _ h => nomatch h⟩

/-- The texts collected so far are UTF-8. -/
def TextOk (lx : Lexer) : Prop := Utf8.WellFormed lx.tokenString ∧ Utf8.WellFormed lx.tokenBuffer

/-- What scanning a token from `lx` on does, where `P` is what it needs of the
texts collected before. -/
def Lexed (P : Prop) (lx : Lexer) (r : Token × Lexer) : Prop :=
  (∃ bs, Reads lx bs r.2) ∧ (P → TokenOk r.1 r.2)

theorem Lexed.error (h : Reads lx bs lx') (e : LexError) :
    Lexed P lx (.parseError e, lx') := ⟨⟨bs, h⟩, fun _ => .error e lx'⟩

theorem Lexed.after {Q : Prop} {r : Token × Lexer} (h : Lexed Q lx' r) (hr : Reads lx bs lx')
    (htext : P → Q) : Lexed P lx r := by
  obtain ⟨⟨cs, hcs⟩, hok⟩ := h
  exact ⟨⟨bs ++ cs, hr.trans hcs⟩, fun h => hok (htext h)⟩

theorem Lexed.weaken {Q : Prop} {r : Token × Lexer} (h : Lexed Q lx r) (htext : P → Q) :
    Lexed P lx r := ⟨h.1, fun hp => h.2 (htext hp)⟩

theorem scanStringFrom_lexed (lx : Lexer) : Lexed (TextOk lx) lx (scanStringFrom lx) := by
  -- along the loop: every completed character adds UTF-8 to both texts
  fun_induction scanStringFrom lx with
  | case1 lx hin => exact .error (get_reads lx) _
  | case2 lx rest hin =>
    have hreads : Reads lx [0x22] lx.get := get_reads_some (by simp [hin])
    refine ⟨⟨_, hreads⟩, fun htext => ⟨fun _ => ?_, ?_⟩⟩
    · rw [hreads.token]
      exact htext.1.append (by decide)
    · intro s hs
      obtain rfl := Token.valueString.inj hs
      rw [get_tokenBuffer]
      exact htext.2
  | case3 lx c rest hin hquote e lx' hscan =>
    have hreads : Reads lx [c] lx.get := get_reads_some (by simp [hin])
    have hspec := scanCharacter_scanned c lx.get
    rw [hscan] at hspec
    obtain ⟨bs, hbs⟩ := hspec
    exact .error (hreads.trans hbs) e
  | case4 lx c rest hin hquote lx' hscan ih =>
    have hreads : Reads lx [c] lx.get := get_reads_some (by simp [hin])
    have hspec := scanCharacter_scanned c lx.get
    rw [hscan] at hspec
    obtain ⟨bs, hbs, hchar, out, hout, hwf⟩ := hspec
    have hall : Reads lx ([c] ++ bs) lx' := hreads.trans hbs
    refine ih.after hall fun htext => ⟨?_, ?_⟩
    · rw [hall.token]
      exact htext.1.append hchar
    · rw [hout, get_tokenBuffer]
      exact htext.2.append hwf

/-- Putting a byte back undoes reading it. -/
theorem unget_reads (lx : Lexer) : Reads lx [] lx.get.unget := by
  unfold Lexer.get
  split
  next h => exact ⟨rfl, by simp [Lexer.unget], fun _ hraw => hraw⟩
  next b rest h =>
    refine ⟨?_, ?_, fun raw hraw => ?_⟩
    · simp [Lexer.unget, h]
    · simp [Lexer.unget]
    · simpa [Lexer.unget, h] using hraw

theorem next_ascii {st st' : NumberState} (h : st.next b = some st') : b ≤ 0x7F := by
  have key : ∀ b : UInt8, (st.next b).isSome = true → b ≤ 0x7F := by
    cases st <;> exact Utf8.forall_byte (by decide +kernel)
  exact key b (by rw [h]; rfl)

/-- The bytes of a number are ASCII. -/
theorem scanNumberFrom_spec (st : NumberState) (type : NumberType) (lx : Lexer) :
    match scanNumberFrom st type lx with
    | .ok (_, lx') => ∃ bs, Reads lx bs lx' ∧ Utf8.Ascii bs
    | .error (_, lx') => ∃ bs, Reads lx bs lx' := by
  fun_induction scanNumberFrom st type lx with
  | case1 st type lx hin e he => exact ⟨_, get_reads lx⟩
  | case2 st type lx hin he | case5 st type lx b rest hin hnext he =>
    exact ⟨[], unget_reads lx, Utf8.ascii_nil⟩
  | case3 st type lx b rest hin st' hnext ih =>
    have hreads : Reads lx [b] (lx.get.add [b]) := (get_reads_some (by simp [hin])).add [b]
    have hb : b ≤ 0x7F := next_ascii hnext
    revert ih
    cases scanNumberFrom st' (type.enter st') (lx.get.add [b]) with
    | error e =>
      rintro ⟨bs, hbs⟩
      exact ⟨_, hreads.trans hbs⟩
    | ok r =>
      rintro ⟨bs, hbs, hascii⟩
      exact ⟨_, hreads.trans hbs, Utf8.ascii_cons_iff.mpr ⟨hb, hascii⟩⟩
  | case4 st type lx b rest hin hnext e he => exact ⟨_, get_reads lx⟩

theorem numberToken_cases (type : NumberType) (buffer : Bytes) :
    (∃ n, numberToken type buffer = .valueUnsigned n) ∨
      (∃ i, numberToken type buffer = .valueInteger i) ∨
      ∃ finite, numberToken type buffer = .valueFloat buffer finite := by
  unfold numberToken
  cases type with
  | unsigned =>
    dsimp only
    split_ifs
    · exact .inl ⟨_, rfl⟩
    · exact .inr (.inr ⟨_, rfl⟩)
  | integer =>
    dsimp only
    split_ifs
    · exact .inr (.inl ⟨_, rfl⟩)
    · exact .inr (.inr ⟨_, rfl⟩)
  | float => exact .inr (.inr ⟨_, rfl⟩)

theorem scanNumber_lexed (b : UInt8) (lx : Lexer) :
    Lexed (Utf8.WellFormed lx.reset.tokenString) lx.reset (scanNumber b lx) := by
  have hspec := scanNumberFrom_spec (.first b) (NumberType.unsigned.enter (.first b))
    (lx.reset.add [b])
  have hstart : Reads lx.reset [] (lx.reset.add [b]) := (Reads.refl lx.reset).add [b]
  unfold scanNumber
  dsimp only
  revert hspec
  cases scanNumberFrom (.first b) (NumberType.unsigned.enter (.first b)) (lx.reset.add [b]) with
  | error e =>
    rintro ⟨bs, hbs⟩
    exact .error (hstart.trans hbs) e.1
  | ok r =>
    obtain ⟨type, lx'⟩ := r
    rintro ⟨bs, hbs, hascii⟩
    have hall : Reads lx.reset bs lx' := hstart.trans hbs
    refine ⟨⟨bs, hall⟩, fun htext => ⟨fun _ => ?_, fun s hs => ?_⟩⟩
    · rw [hall.token]
      exact htext.append (Utf8.wellFormed_of_ascii hascii)
    · obtain ⟨n, hn⟩ | ⟨i, hi⟩ | ⟨f, hf⟩ := numberToken_cases type lx'.tokenBuffer
      · exact nomatch hn.symm.trans hs
      · exact nomatch hi.symm.trans hs
      · exact nomatch hf.symm.trans hs

/-- A literal is ASCII. -/
theorem scanLiteral_lexed {t : Token} (ht : ∀ s, t ≠ .valueString s) (rest : Bytes) :
    ∀ lx : Lexer, Utf8.Ascii rest →
      Lexed (Utf8.WellFormed lx.tokenString) lx (scanLiteral t rest lx) := by
  induction rest with
  | nil =>
    intro lx _
    exact ⟨⟨[], .refl lx⟩, fun htext => ⟨fun _ => htext, fun s hs => absurd hs (ht s)⟩⟩
  | cons c rest ih =>
    intro lx hascii
    unfold scanLiteral
    split_ifs with hc
    · have hreads : Reads lx [c] lx.get := get_reads_some hc
      obtain ⟨hc, hrest⟩ := Utf8.ascii_cons_iff.mp hascii
      refine (ih lx.get hrest).after hreads fun htext => ?_
      rw [hreads.token]
      exact htext.append (Utf8.wellFormed_of_ascii (Utf8.ascii_cons_iff.mpr ⟨hc, Utf8.ascii_nil⟩))
    · exact .error (get_reads lx) _

theorem whitespace_ascii (h : isWhitespace b = true) : b ≤ 0x7F := by
  have hcases : b = 0x20 ∨ b = 0x09 ∨ b = 0x0A ∨ b = 0x0D := by simpa [isWhitespace] using h
  obtain rfl | rfl | rfl | rfl := hcases <;> decide

/-- White space is ASCII; the character after it is current. -/
theorem skipWhitespace_reads (lx : Lexer) :
    ∃ ws, Utf8.Ascii ws ∧ Reads lx (ws ++ (skipWhitespace lx).current.toList) (skipWhitespace lx) := by
  fun_induction skipWhitespace lx with
  | case1 lx hin | case3 lx b rest hin hws => exact ⟨[], Utf8.ascii_nil, get_reads lx⟩
  | case2 lx b rest hin hws ih =>
    obtain ⟨ws, hascii, hreads⟩ := ih
    have hfirst : Reads lx [b] lx.get := get_reads_some (by simp [hin])
    exact ⟨b :: ws, Utf8.ascii_cons_iff.mpr ⟨whitespace_ascii hws, hascii⟩, hfirst.trans hreads⟩

/-! ## `scan` -/

/-- The current character is the first of a token. -/
def AtToken (lx : Lexer) : Prop :=
  ∃ text, lx.tokenString = text ++ lx.current.toList ∧ Utf8.WellFormed text

theorem AtToken.ascii (hb : b ≤ 0x7F) (hcur : lx.current = some b) (h : AtToken lx) :
    Utf8.WellFormed lx.tokenString := by
  obtain ⟨text, htext, hwf⟩ := h
  rw [htext, hcur]
  exact hwf.append (Utf8.wellFormed_of_ascii (Utf8.ascii_cons_iff.mpr ⟨hb, Utf8.ascii_nil⟩))

/-- A token restarted at its first character still follows UTF-8. -/
theorem AtToken.reset (h : AtToken lx) (ht : Tracks raw lx) : Tracks raw lx.reset := by
  obtain ⟨text, htext, hwf⟩ := h
  obtain ⟨before, hsplit, hbefore⟩ := ht.split
  refine ⟨ht.position, before ++ text, ?_, hbefore.append hwf⟩
  rw [hsplit, htext]
  simp [Lexer.reset]

private theorem lexed_string (hcur : lx.current = some 0x22) :
    Lexed (AtToken lx) lx.reset (scanString lx) := by
  refine (scanStringFrom_lexed lx.reset).weaken fun _ => ⟨?_, Utf8.wellFormed_nil⟩
  simp only [Lexer.reset, hcur]
  decide

private theorem lexed_number (hcur : lx.current = some b) (hb : b ≤ 0x7F) :
    Lexed (AtToken lx) lx.reset (scanNumber b lx) := by
  refine (scanNumber_lexed b lx).weaken fun _ => ?_
  simp only [Lexer.reset, hcur]
  exact Utf8.wellFormed_of_ascii (Utf8.ascii_cons_iff.mpr ⟨hb, Utf8.ascii_nil⟩)

/-- `scanToken` extends the token text or restarts it. -/
theorem scanToken_lexed (lx : Lexer) :
    Lexed (AtToken lx) lx (scanToken lx) ∨ Lexed (AtToken lx) lx.reset (scanToken lx) := by
  have hdigit : ∀ b : UInt8, b = 0x2D ∨ isDigit b = true → b ≤ 0x7F := by
    intro b hb
    obtain rfl | hb := hb
    · decide
    · have hle : b ≤ 0x39 := (of_decide_eq_true hb).2
      exact UInt8.le_trans hle (by decide)
  unfold scanToken
  split
  next hcur =>
    refine .inl ⟨⟨[], .refl lx⟩, fun ⟨text, htext, hwf⟩ => ⟨fun _ => ?_, fun _ hs => nomatch hs⟩⟩
    rw [htext, hcur]
    simpa using hwf
  next b hcur =>
    split
    next t ht =>
      have htable : ∀ e ∈ structural, e.1 ≤ 0x7F ∧ ∀ s, e.2 ≠ .valueString s := by
        simp [structural]
      obtain ⟨hb, hstring⟩ := htable _ (mem_of_lookup ht)
      exact .inl ⟨⟨[], .refl lx⟩,
        fun h => ⟨fun _ => h.ascii hb hcur, fun s hs => absurd hs (hstring s)⟩⟩
    next =>
      split
      next t rest ht =>
        have htable : ∀ e ∈ literals, e.1 ≤ 0x7F ∧ Utf8.Ascii e.2.2 ∧ ∀ s, e.2.1 ≠ .valueString s := by
          simp [literals]
          decide +kernel
        obtain ⟨hb, hrest, hstring⟩ := htable _ (mem_of_lookup ht)
        exact .inl ((scanLiteral_lexed hstring rest lx hrest).weaken fun h => h.ascii hb hcur)
      next =>
        split_ifs with hquote hnumber
        · exact .inr (lexed_string (hquote ▸ hcur))
        · exact .inr (lexed_number hcur (hdigit b hnumber))
        · exact .inl (.error (.refl lx) _)

/-- `skip_bom` reads nothing or a whole byte order mark, unless it fails. -/
theorem skipBom_spec (lx : Lexer) :
    ∃ bs, Reads lx bs (skipBom lx).2 ∧
      ((skipBom lx).1 = true → Utf8.WellFormed bs) ∧
      ((skipBom lx).1 = false → (skipBom lx).2.input.length < lx.input.length) := by
  unfold skipBom
  split_ifs with h1 h2
  · have hreads : Reads lx ([0xEF] ++ [0xBB] ++ lx.get.get.get.current.toList) lx.get.get.get :=
      ((get_reads_some h1).trans (get_reads_some h2)).trans (get_reads lx.get.get)
    refine ⟨_, hreads, fun h3 => ?_, fun _ => ?_⟩
    · rw [of_decide_eq_true h3]
      decide
    · have hin := hreads.input
      simp only [hin, List.length_append, List.length_cons, List.length_nil]
      omega
  · have hreads : Reads lx ([0xEF] ++ lx.get.get.current.toList) lx.get.get :=
      (get_reads_some h1).trans (get_reads lx.get)
    refine ⟨_, hreads, by simp, fun _ => ?_⟩
    have hin := hreads.input
    simp only [hin, List.length_append, List.length_cons, List.length_nil]
    omega
  · exact ⟨[], unget_reads lx, fun _ => Utf8.wellFormed_nil, by simp⟩

/-- What `scan` does after the byte order mark. -/
private theorem scanToken_skipWhitespace_length (lx : Lexer) :
    let r := scanToken (skipWhitespace lx)
    r.2.input.length ≤ lx.input.length ∧
      (r.1 ≠ .endOfInput → r.2.input.length < lx.input.length) := by
  obtain ⟨ws, -, hws⟩ := skipWhitespace_reads lx
  have hlen : (scanToken (skipWhitespace lx)).2.input.length ≤ (skipWhitespace lx).input.length := by
    obtain ⟨⟨bs, hbs⟩, -⟩ | ⟨⟨bs, hbs⟩, -⟩ := scanToken_lexed (skipWhitespace lx)
    · exact hbs.length_le
    · exact hbs.length_le
  refine ⟨Nat.le_trans hlen hws.length_le, fun ht => ?_⟩
  cases hcur : (skipWhitespace lx).current with
  | none => exact absurd (by rw [scanToken, hcur]) ht
  | some b =>
    have hin := hws.input
    rw [hcur] at hin
    simp only [hin, List.length_append, Option.toList_some, List.length_cons, List.length_nil]
    omega

/-- Every token but the last takes a byte off the input. -/
theorem scan_length (lx : Lexer) :
    (scan lx).2.input.length ≤ lx.input.length ∧
      ((scan lx).1 ≠ .endOfInput → (scan lx).2.input.length < lx.input.length) := by
  unfold scan
  split_ifs with h
  · obtain ⟨bs, hbs, -, hlt⟩ := skipBom_spec lx
    revert hbs hlt
    match skipBom lx with
    | (true, lx') =>
      intro hbs _
      obtain ⟨hle, hlt⟩ := scanToken_skipWhitespace_length lx'
      exact ⟨Nat.le_trans hle hbs.length_le,
        fun ht => Nat.lt_of_lt_of_le (hlt ht) hbs.length_le⟩
    | (false, lx') =>
      intro hbs hlt
      exact ⟨hbs.length_le, fun _ => hlt rfl⟩
  · exact scanToken_skipWhitespace_length lx

/-- Between two calls of `scan`. -/
structure Settled (raw : Bytes) (lx : Lexer) : Prop extends Tracks raw lx where
  token : Utf8.WellFormed lx.tokenString

private theorem scanToken_skipWhitespace_spec (h : Settled raw lx) :
    let r := scanToken (skipWhitespace lx)
    Tracks raw r.2 ∧ TokenOk r.1 r.2 := by
  obtain ⟨ws, hascii, hws⟩ := skipWhitespace_reads lx
  have hat : AtToken (skipWhitespace lx) :=
    ⟨lx.tokenString ++ ws, by rw [hws.token, List.append_assoc],
      h.token.append (Utf8.wellFormed_of_ascii hascii)⟩
  have htracks : Tracks raw (skipWhitespace lx) := h.toTracks.reads hws
  obtain ⟨⟨bs, hbs⟩, hok⟩ | ⟨⟨bs, hbs⟩, hok⟩ := scanToken_lexed (skipWhitespace lx)
  · exact ⟨htracks.reads hbs, hok hat⟩
  · exact ⟨(hat.reset htracks).reads hbs, hok hat⟩

/-- The invariant over one call of `scan`. -/
theorem scan_spec (h : Settled raw lx) :
    Tracks raw (scan lx).2 ∧ TokenOk (scan lx).1 (scan lx).2 := by
  unfold scan
  split_ifs with hzero
  · obtain ⟨bs, hbs, hwf, -⟩ := skipBom_spec lx
    revert hbs hwf
    match skipBom lx with
    | (true, lx') =>
      intro hbs hwf
      have hsettled : Settled raw lx' :=
        ⟨h.toTracks.reads hbs, by rw [hbs.token]; exact h.token.append (hwf rfl)⟩
      exact scanToken_skipWhitespace_spec hsettled
    | (false, lx') =>
      intro hbs _
      exact ⟨h.toTracks.reads hbs, .error _ _⟩
  · exact scanToken_skipWhitespace_spec h

end ChatServer.Json
