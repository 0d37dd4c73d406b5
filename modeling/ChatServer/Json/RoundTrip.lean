import ChatServer.Json.Parser
import ChatServer.Json.Text

/-!
# Reading back what was written

`parse` takes the text of a value back to the value, as long as its integers
fit 64 bits, it has no doubles and its objects are in key order; a non-negative
integer comes back as an unsigned one.

* `Fits`, `reread` — the values, and what they are read as;
* `At`, `nextToken` — the lexer between two tokens and what it reads next;
* `parse_text` — the round trip, over the parser's own loop.
-/

namespace ChatServer.Json

open Base

/-! ## Reading bytes -/

/-- The lexer has read something and `rest` is what remains. -/
structure At (lx : Lexer) (rest : Bytes) : Prop where
  input : lx.input = rest
  begun : 0 < lx.position.charsReadTotal

variable {lx : Lexer} {b : UInt8} {bs rest : Bytes}

theorem get_at (h : lx.input = b :: rest) :
    At lx.get rest ∧ lx.get.current = some b ∧ lx.get.tokenBuffer = lx.tokenBuffer := by
  refine ⟨⟨?_, ?_⟩, ?_, get_tokenBuffer lx⟩
  · rw [get_input, h, List.tail_cons]
  · unfold Lexer.get
    rw [h]
    exact Nat.succ_pos _
  · rw [get_current, h, List.head?_cons]

theorem At.add (h : At lx rest) (out : Bytes) : At (lx.add out) rest := ⟨h.input, h.begun⟩

theorem At.reset (h : At lx rest) : At lx.reset rest := ⟨h.input, h.begun⟩

/-- Looking at the next byte and putting it back. -/
theorem At.unget (h : At lx rest) : At lx.get.unget rest ∧ lx.get.unget.tokenBuffer =
    lx.tokenBuffer := by
  have hpos := h.begun
  unfold Lexer.get
  split
  next hin =>
    rw [h.input] at hin
    exact ⟨⟨h.input, by simpa [Lexer.unget] using hpos⟩, rfl⟩
  next b rest' hin =>
    refine ⟨⟨?_, by simpa [Lexer.unget] using hpos⟩, rfl⟩
    rw [← h.input, hin]
    rfl

/-! ## The characters of a string -/

/-- The bytes a lead byte asks for. -/
theorem nextByteInRange_at {ranges : List Utf8.Range}
    (hbs : List.Forall₂ Utf8.InRange ranges bs) :
    ∀ lx : Lexer, At lx (bs ++ rest) →
      ∃ lx', nextByteInRange ranges lx = .ok lx' ∧ At lx' rest ∧
        lx'.tokenBuffer = lx.tokenBuffer ++ bs := by
  induction hbs with
  | nil => exact fun lx h => ⟨lx, rfl, h, (List.append_nil _).symm⟩
  | @cons r b ranges bs hrange _ ih =>
    intro lx h
    obtain ⟨hat, hcur, hbuf⟩ := get_at h.input
    obtain ⟨lx', hscan, hat', hbuf'⟩ := ih (lx.get.add [b]) (hat.add [b])
    refine ⟨lx', ?_, hat', ?_⟩
    · rw [nextByteInRange, hcur]
      exact (if_pos hrange).trans hscan
    · rw [hbuf', Lexer.add, hbuf, List.append_assoc]
      rfl

variable {n : Nat} {lx' : Lexer} {type : NumberType} {t : Token} {items : List Json}
  {fields : Fields} {k : Bytes} {v : Json} {s : ParserState} {frames : List Frame}

/-- Four hexadecimal digits, the first two of them zero. -/
theorem getCodepoint_at {hi lo : UInt8} {m : Nat} (hhi : hexValue hi = some m)
    (hlo : hexValue lo = some n) (h : lx.input = 0x30 :: 0x30 :: hi :: lo :: rest) :
    ∃ lx', getCodepoint lx = .ok (m * 16 + n, lx') ∧ At lx' rest ∧
      lx'.tokenBuffer = lx.tokenBuffer := by
  have hzero : hexValue 0x30 = some 0 := by decide
  obtain ⟨hat₁, hcur₁, hbuf₁⟩ := get_at h
  obtain ⟨hat₂, hcur₂, hbuf₂⟩ := get_at hat₁.input
  obtain ⟨hat₃, hcur₃, hbuf₃⟩ := get_at hat₂.input
  obtain ⟨hat₄, hcur₄, hbuf₄⟩ := get_at hat₃.input
  refine ⟨lx.get.get.get.get, ?_, hat₄, by rw [hbuf₄, hbuf₃, hbuf₂, hbuf₁]⟩
  simp only [getCodepoint, getCodepointFrom, hcur₁, hcur₂, hcur₃, hcur₄, Option.bind_some, hzero,
    hhi, hlo, Nat.shiftLeft_eq]
  congr 2
  omega

theorem scanStringFrom_step {c : UInt8} (hin : lx.input = c :: rest) (hquote : c ≠ 0x22)
    (hscan : scanCharacter c lx.get = .ok lx') : scanStringFrom lx = scanStringFrom lx' := by
  rw [scanStringFrom]
  split
  next hnil => exact absurd (hin.symm.trans hnil) (by simp)
  next c' rest' hin' =>
    obtain ⟨rfl, rfl⟩ := List.cons.inj (hin.symm.trans hin')
    rw [if_neg hquote]
    split
    next e lx'' herror => exact absurd (hscan.symm.trans herror) (by simp)
    next lx'' hok => rw [Except.ok.inj (hscan.symm.trans hok)]

theorem scanStringFrom_end (hin : lx.input = 0x22 :: rest) :
    scanStringFrom lx = (.valueString lx.tokenBuffer, lx.get) := by
  rw [scanStringFrom]
  split
  next hnil => exact absurd (hin.symm.trans hnil) (by simp)
  next c' rest' hin' =>
    obtain ⟨rfl, rfl⟩ := List.cons.inj (hin.symm.trans hin')
    rw [if_pos rfl, get_tokenBuffer]

/-- The three ways an ASCII character is written. -/
theorem escapeByte_cases {b : UInt8} (hb : b ≤ 0x7F) :
    (escapeByte b = [b] ∧ b ≠ 0x22 ∧ b ≠ 0x5C ∧ ¬ b ≤ 0x1F) ∨
      (∃ e, escapeByte b = [0x5C, e] ∧ e ≠ 0x75 ∧ escapes.lookup e = some b) ∨
      ∃ hi lo, escapeByte b = [0x5C, 0x75, 0x30, 0x30, hi, lo] ∧ b.toNat < 0x20 ∧
        hexValue hi = some (b.toNat / 16) ∧ hexValue lo = some (b.toNat % 16) := by
  have key : ∀ b : UInt8, b ≤ 0x7F →
      (escapeByte b = [b] ∧ b ≠ 0x22 ∧ b ≠ 0x5C ∧ ¬ b ≤ 0x1F) ∨
        (escapeByte b = [0x5C, (escapeByte b).getD 1 0] ∧ (escapeByte b).getD 1 0 ≠ 0x75 ∧
          escapes.lookup ((escapeByte b).getD 1 0) = some b) ∨
        (escapeByte b = [0x5C, 0x75, 0x30, 0x30, (escapeByte b).getD 4 0,
            (escapeByte b).getD 5 0] ∧ b.toNat < 0x20 ∧
          hexValue ((escapeByte b).getD 4 0) = some (b.toNat / 16) ∧
          hexValue ((escapeByte b).getD 5 0) = some (b.toNat % 16)) :=
    Utf8.forall_byte (by decide +kernel)
  obtain h | h | h := key b hb
  · exact .inl h
  · exact .inr (.inl ⟨_, h⟩)
  · exact .inr (.inr ⟨_, _, h⟩)

/-- One character of a string is read back. -/
theorem scanStringFrom_unit {ranges : List Utf8.Range} (htails : Utf8.tails b = some ranges)
    (hbs : List.Forall₂ Utf8.InRange ranges bs) (hwide : ∀ x ∈ bs, ¬ x ≤ 0x7F)
    (h : At lx (escaped (b :: bs) ++ rest)) :
    ∃ lx', scanStringFrom lx = scanStringFrom lx' ∧ At lx' rest ∧
      lx'.tokenBuffer = lx.tokenBuffer ++ b :: bs := by
  by_cases hascii : b ≤ 0x7F
  · obtain rfl : ranges = [] := by
      rw [Utf8.tails, if_pos hascii] at htails
      exact (Option.some.inj htails).symm
    cases hbs
    rw [show escaped [b] = escapeByte b by rw [escaped_cons]; exact List.append_nil _] at h
    obtain ⟨hplain, hquote, hslash, hctl⟩ | ⟨e, hshort, hu, hlookup⟩ | ⟨hi, lo, hlong, hlt, hhi, hlo⟩ :=
      escapeByte_cases hascii
    · rw [hplain] at h
      obtain ⟨hat, -, hbuf⟩ := get_at h.input
      refine ⟨lx.get.add [b], scanStringFrom_step h.input hquote ?_, hat.add _, by
        rw [Lexer.add, hbuf]⟩
      rw [scanCharacter, if_neg hslash, if_neg hctl, htails]
      rfl
    · rw [hshort] at h
      obtain ⟨hat₁, -, hbuf₁⟩ := get_at h.input
      obtain ⟨hat₂, hcur, hbuf₂⟩ := get_at hat₁.input
      refine ⟨lx.get.get.add [b], scanStringFrom_step h.input (by decide) ?_, hat₂.add _, by
        rw [Lexer.add, hbuf₂, hbuf₁]⟩
      rw [scanCharacter, if_pos rfl, scanEscape, hcur]
      dsimp only
      rw [if_neg hu, hlookup]
    · rw [hlong] at h
      obtain ⟨hat₁, -, hbuf₁⟩ := get_at h.input
      obtain ⟨hat₂, hcur, hbuf₂⟩ := get_at hat₁.input
      obtain ⟨lx', hcode, hat', hbuf'⟩ := getCodepoint_at hhi hlo hat₂.input
      refine ⟨lx'.add [b], scanStringFrom_step h.input (by decide) ?_, hat'.add _, by
        rw [Lexer.add, hbuf', hbuf₂, hbuf₁]⟩
      have hvalue : b.toNat / 16 * 16 + b.toNat % 16 = b.toNat := by omega
      have hbytes : codepointBytes b.toNat = [b] := by
        rw [codepointBytes, if_pos (by omega), UInt8.ofNat_toNat]
      rw [scanCharacter, if_pos rfl, scanEscape, hcur]
      dsimp only
      rw [if_pos rfl, scanUnicodeEscape, hcode, hvalue]
      show (if _ then _ else if _ then _ else _) = _
      rw [if_neg (by omega), if_neg (by omega), hbytes]
  · rw [escaped_wide (List.forall_mem_cons.mpr ⟨hascii, hwide⟩)] at h
    obtain ⟨hat, -, hbuf⟩ := get_at h.input
    obtain ⟨lx', hscan, hat', hbuf'⟩ := nextByteInRange_at hbs (lx.get.add [b]) (hat.add [b])
    have hnot : ∀ c : UInt8, c ≤ 0x7F → b ≠ c := fun c hc heq => hascii (heq ▸ hc)
    refine ⟨lx', scanStringFrom_step h.input (hnot _ (by decide)) ?_, hat', ?_⟩
    · rw [scanCharacter, if_neg (hnot _ (by decide)), if_neg, htails]
      · exact hscan
      · exact fun hle => hascii (UInt8.le_trans hle (by decide))
    · rw [hbuf', Lexer.add, hbuf, List.append_assoc]
      rfl

/-- A string is read back. -/
theorem scanStringFrom_escaped {s : Bytes} (hs : Utf8.WellFormed s) :
    ∀ lx : Lexer, At lx (escaped s ++ 0x22 :: rest) →
      ∃ lx', scanStringFrom lx = (.valueString (lx.tokenBuffer ++ s), lx') ∧ At lx' rest := by
  -- one character at a time, on the length of what remains
  induction hlen : s.length using Nat.strongRecOn generalizing s with
  | ind n ih =>
    intro lx h
    cases s with
    | nil =>
      have hin : lx.input = 0x22 :: rest := h.input
      refine ⟨lx.get, ?_, (get_at hin).1⟩
      rw [scanStringFrom_end hin, List.append_nil]
    | cons b s =>
      obtain ⟨ranges, bs, t, htails, rfl, hbs, hwide, ht⟩ := hs.split
      have hsplit : escaped (b :: (bs ++ t)) ++ 0x22 :: rest =
          escaped (b :: bs) ++ (escaped t ++ 0x22 :: rest) := by
        rw [← List.cons_append, escaped_append, List.append_assoc]
      rw [hsplit] at h
      obtain ⟨lx', hstep, hat, hbuf⟩ := scanStringFrom_unit htails hbs hwide h
      have hshort : t.length < n := by
        rw [← hlen, List.length_cons, List.length_append]
        omega
      obtain ⟨lx'', hscan, hend⟩ := ih t.length hshort ht rfl lx' hat
      refine ⟨lx'', ?_, hend⟩
      rw [hstep, hscan, hbuf, List.append_assoc]
      rfl

/-! ## Numbers -/

/-- No number goes on here. -/
def Stops (rest : Bytes) : Prop :=
  ∀ b ∈ rest.head?, isDigit b = false ∧ b ≠ 0x2E ∧ b ≠ 0x65 ∧ b ≠ 0x45

theorem scanNumberFrom_stop {st : NumberState} (h : At lx rest)
    (hnext : ∀ b ∈ rest.head?, st.next b = none) (herror : st.error = none) :
    scanNumberFrom st type lx = .ok (type, lx.get.unget) := by
  rw [scanNumberFrom]
  split
  next hnil => rw [herror]
  next b rest' hin =>
    have hhead : b ∈ rest.head? := by
      rw [← h.input, hin]
      rfl
    rw [hnext b hhead]
    dsimp only
    rw [herror]

theorem scanNumberFrom_step {st st' : NumberState} (h : lx.input = b :: rest)
    (hnext : st.next b = some st') :
    scanNumberFrom st type lx = scanNumberFrom st' (type.enter st') (lx.get.add [b]) := by
  rw [scanNumberFrom]
  split
  next hnil => exact absurd (h.symm.trans hnil) (by simp)
  next b' rest' hin =>
    obtain ⟨rfl, rfl⟩ := List.cons.inj (h.symm.trans hin)
    rw [hnext]

/-- The digits after the first. -/
theorem scanNumberFrom_digits (hrest : Stops rest) :
    ∀ (digits : Bytes) (lx : Lexer), (∀ b ∈ digits, isDigit b = true) → At lx (digits ++ rest) →
      ∃ lx', scanNumberFrom .any1 type lx = .ok (type, lx') ∧ At lx' rest ∧
        lx'.tokenBuffer = lx.tokenBuffer ++ digits := by
  intro digits
  induction digits with
  | nil =>
    intro lx _ h
    have hnext : ∀ b ∈ rest.head?, NumberState.any1.next b = none := by
      intro b hb
      obtain ⟨hdigit, hpoint, he, hE⟩ := hrest b hb
      simp [NumberState.next, hdigit, hpoint, he, hE]
    obtain ⟨hat, hbuf⟩ := h.unget
    exact ⟨_, scanNumberFrom_stop h hnext rfl, hat, by rw [hbuf, List.append_nil]⟩
  | cons d digits ih =>
    intro lx hdigits h
    obtain ⟨hd, htail⟩ := List.forall_mem_cons.mp hdigits
    obtain ⟨hat, -, hbuf⟩ := get_at h.input
    obtain ⟨lx', hscan, hat', hbuf'⟩ := ih (lx.get.add [d]) htail (hat.add [d])
    have hnext : NumberState.any1.next d = some .any1 := by simp [NumberState.next, hd]
    refine ⟨lx', ?_, hat', ?_⟩
    · rw [scanNumberFrom_step h.input hnext]
      exact hscan
    · rw [hbuf', Lexer.add, hbuf, List.append_assoc]
      rfl

theorem natText_isDigit : ∀ b ∈ natText n, isDigit b = true :=
  fun _ hb => decide_eq_true (natText_digit hb)

theorem digitsValue_append (digits : Bytes) (d : UInt8) :
    digitsValue (digits ++ [d]) = digitsValue digits * 10 + (d.toNat - 48) := by
  unfold digitsValue
  rw [List.foldl_append]
  rfl

theorem digitsValue_natText (n : Nat) : digitsValue (natText n) = n := by
  induction n using Nat.strongRecOn with
  | ind n ih =>
    have hdigit : ∀ d < 10, (UInt8.ofNat (48 + d)).toNat - 48 = d := by
      intro d hd
      rw [UInt8.toNat_ofNat', Nat.mod_eq_of_lt (by omega)]
      omega
    by_cases hlt : n < 10
    · rw [natText_of_lt hlt]
      show 0 * 10 + _ = n
      rw [hdigit n hlt]
      omega
    · rw [natText_of_le (by omega), digitsValue_append, ih (n / 10) (by omega),
        hdigit _ (by omega)]
      omega

theorem magnitude_natText (n : Nat) : digitsValue ((natText n).filter isDigit) = n := by
  rw [List.filter_eq_self.mpr natText_isDigit, digitsValue_natText]

/-- The rest of a number whose first digit is current. -/
theorem scanNumberFrom_natText {d : UInt8} {digits : Bytes} (type : NumberType)
    (htext : natText n = d :: digits) (hrest : Stops rest) (h : At lx (digits ++ rest)) :
    ∃ lx', scanNumberFrom (if d = 0x30 then .zero else .any1) type lx = .ok (type, lx') ∧
      At lx' rest ∧ lx'.tokenBuffer = lx.tokenBuffer ++ digits := by
  have hdigits : ∀ b ∈ digits, isDigit b = true := fun b hb =>
    natText_isDigit b (htext ▸ List.mem_cons_of_mem d hb)
  by_cases hzero : d = 0x30
  · have hn : n = 0 := by
      by_contra hpos
      obtain ⟨d', digits', htext', hd'⟩ := natText_head (Nat.pos_of_ne_zero hpos)
      rw [htext] at htext'
      exact hd' ((List.cons.inj htext').1.symm.trans hzero)
    subst hn
    obtain ⟨-, rfl⟩ : d = 0x30 ∧ digits = [] := by
      have : natText 0 = [0x30] := natText_of_lt (by omega)
      rw [htext] at this
      exact List.cons.inj this
    have hnext : ∀ b ∈ rest.head?, NumberState.zero.next b = none := by
      intro b hb
      obtain ⟨-, hpoint, he, hE⟩ := hrest b hb
      simp [NumberState.next, hpoint, he, hE]
    obtain ⟨hat, hbuf⟩ := h.unget
    rw [if_pos hzero]
    exact ⟨_, scanNumberFrom_stop h hnext rfl, hat, by rw [hbuf, List.append_nil]⟩
  · rw [if_neg hzero]
    exact scanNumberFrom_digits hrest digits lx hdigits h

/-! ## Tokens -/

/-- The token after white space. -/
def nextToken (lx : Lexer) : Token × Lexer := scanToken (skipWhitespace lx)

theorem scan_eq_nextToken (h : At lx rest) : scan lx = nextToken lx := by
  unfold scan
  rw [if_neg (Nat.ne_of_gt h.begun)]
  rfl

theorem skipWhitespace_none (hin : lx.input = b :: rest) (hb : isWhitespace b = false) :
    skipWhitespace lx = lx.get := by
  rw [skipWhitespace]
  split
  next hnil => exact absurd (hin.symm.trans hnil) (by simp)
  next b' rest' hin' =>
    obtain ⟨rfl, rfl⟩ := List.cons.inj (hin.symm.trans hin')
    rw [hb, if_neg Bool.false_ne_true]

/-- The next token is `t`, and `rest` remains after it. -/
def Next (lx : Lexer) (t : Token) (rest : Bytes) : Prop :=
  ∃ lx', nextToken lx = (t, lx') ∧ At lx' rest

theorem next_structural (hin : lx.input = b :: rest) (hb : structural.lookup b = some t)
    (hspace : isWhitespace b = false) : Next lx t rest := by
  obtain ⟨hat, hcur, -⟩ := get_at hin
  refine ⟨lx.get, ?_, hat⟩
  rw [nextToken, skipWhitespace_none hin hspace, scanToken, hcur]
  dsimp only
  rw [hb]

theorem next_end (h : At lx []) : ∃ lx', nextToken lx = (.endOfInput, lx') := by
  refine ⟨lx.get, ?_⟩
  have hskip : skipWhitespace lx = lx.get := by
    rw [skipWhitespace]
    split
    next => rfl
    next b rest hin => exact absurd (h.input.symm.trans hin) (by simp)
  have hcur : lx.get.current = none := by rw [get_current, h.input]; rfl
  rw [nextToken, hskip, scanToken, hcur]

theorem scanLiteral_at : ∀ (word : Bytes) (lx : Lexer), At lx (word ++ rest) →
    ∃ lx', scanLiteral t word lx = (t, lx') ∧ At lx' rest
  | [], lx, h => ⟨lx, rfl, h⟩
  | c :: word, lx, h => by
      obtain ⟨hat, hcur, -⟩ := get_at h.input
      obtain ⟨lx', hscan, hat'⟩ := scanLiteral_at word lx.get hat
      refine ⟨lx', ?_, hat'⟩
      rw [scanLiteral, if_pos hcur, hscan]

theorem next_literal {word : Bytes} (hin : lx.input = b :: (word ++ rest))
    (hb : structural.lookup b = none) (hword : literals.lookup b = some (t, word))
    (hspace : isWhitespace b = false) : Next lx t rest := by
  obtain ⟨hat, hcur, -⟩ := get_at hin
  obtain ⟨lx', hscan, hat'⟩ := scanLiteral_at (t := t) word lx.get hat
  refine ⟨lx', ?_, hat'⟩
  rw [nextToken, skipWhitespace_none hin hspace, scanToken, hcur]
  dsimp only
  rw [hb, hword]
  exact hscan

theorem next_string {s : Bytes} (hs : Utf8.WellFormed s)
    (hin : lx.input = str "\"" ++ escaped s ++ str "\"" ++ rest) : Next lx (.valueString s) rest := by
  have hin' : lx.input = 0x22 :: (escaped s ++ 0x22 :: rest) := by
    rw [hin]
    simp [str]
  obtain ⟨hat, hcur, -⟩ := get_at hin'
  obtain ⟨lx', hscan, hat'⟩ := scanStringFrom_escaped hs lx.get.reset hat.reset
  refine ⟨lx', ?_, hat'⟩
  have hnone : structural.lookup 0x22 = none ∧ literals.lookup 0x22 = none := by decide
  rw [nextToken, skipWhitespace_none hin' (by decide), scanToken, hcur]
  dsimp only
  rw [hnone.1, hnone.2]
  exact hscan

theorem next_number (hin : lx.input = b :: rest) (hb : b = 0x2D ∨ isDigit b = true) :
    nextToken lx = scanNumber b lx.get := by
  have key : ∀ b : UInt8, b = 0x2D ∨ isDigit b = true → structural.lookup b = none ∧
      literals.lookup b = none ∧ b ≠ 0x22 ∧ isWhitespace b = false :=
    Utf8.forall_byte (by decide +kernel)
  obtain ⟨hstructural, hliteral, hquote, hspace⟩ := key b hb
  obtain ⟨-, hcur, -⟩ := get_at hin
  rw [nextToken, skipWhitespace_none hin hspace, scanToken, hcur]
  dsimp only
  rw [hstructural, hliteral]
  dsimp only
  rw [if_neg hquote, if_pos hb]

theorem scanNumber_ok
    (h : scanNumberFrom (.first b) (NumberType.unsigned.enter (.first b)) (lx.reset.add [b]) =
      .ok (type, lx')) :
    scanNumber b lx = (numberToken type lx'.tokenBuffer, lx') := by
  simp only [scanNumber, h]

theorem exists_digits (n : Nat) : ∃ d digits, natText n = d :: digits ∧ isDigit d = true := by
  cases htext : natText n with
  | nil =>
    by_cases hlt : n < 10
    · rw [natText_of_lt hlt] at htext
      cases htext
    · rw [natText_of_le (by omega)] at htext
      exact absurd htext (by simp)
  | cons d digits => exact ⟨d, digits, rfl, natText_isDigit d (htext ▸ List.mem_cons_self)⟩

theorem next_unsigned (hn : n < 2 ^ 64) (hrest : Stops rest) (hin : lx.input = natText n ++ rest) :
    Next lx (.valueUnsigned n) rest := by
  obtain ⟨d, digits, htext, hd⟩ := exists_digits n
  have hminus : d ≠ 0x2D := fun heq => absurd (heq ▸ hd) (by decide)
  rw [htext] at hin
  obtain ⟨hat, -, -⟩ := get_at hin
  obtain ⟨lx', hscan, hat', hbuf⟩ := scanNumberFrom_natText .unsigned htext hrest
    (hat.reset.add [d])
  refine ⟨lx', ?_, hat'⟩
  have hbuffer : lx'.tokenBuffer = natText n := by
    rw [hbuf, htext]
    rfl
  have hfirst : NumberState.first d = if d = 0x30 then .zero else .any1 := if_neg hminus
  have htype : NumberType.unsigned.enter (if d = 0x30 then .zero else .any1) = .unsigned := by
    split <;> rfl
  rw [next_number hin (.inr hd), scanNumber_ok (by rw [hfirst, htype]; exact hscan), hbuffer,
    numberToken, magnitude_natText, if_pos hn]

theorem next_negative {k : Nat} (hk : k < 2 ^ 63) (hrest : Stops rest)
    (hin : lx.input = 0x2D :: (natText (k + 1) ++ rest)) :
    Next lx (.valueInteger (.negSucc k)) rest := by
  obtain ⟨d, digits, htext, hd⟩ := exists_digits (k + 1)
  obtain ⟨hat, -, -⟩ := get_at hin
  have hstart : At (lx.get.reset.add [0x2D]) (d :: (digits ++ rest)) := by
    have := hat.reset.add [0x2D]
    rwa [htext] at this
  obtain ⟨hat₁, -, hbuf₁⟩ := get_at hstart.input
  obtain ⟨lx', hscan, hat', hbuf⟩ := scanNumberFrom_natText .integer htext hrest
    (hat₁.add [d])
  refine ⟨lx', ?_, hat'⟩
  have hnext : NumberState.minus.next d = some (if d = 0x30 then .zero else .any1) := by
    simp only [NumberState.next, hd]
    split <;> rfl
  have htype : NumberType.integer.enter (if d = 0x30 then .zero else .any1) = .integer := by
    split <;> rfl
  have hbuffer : lx'.tokenBuffer = 0x2D :: natText (k + 1) := by
    rw [hbuf, Lexer.add, hbuf₁, htext]
    rfl
  have hmagnitude : digitsValue ((0x2D :: natText (k + 1)).filter isDigit) = k + 1 := by
    rw [List.filter_cons_of_neg (by decide), magnitude_natText]
  have hnumber : scanNumberFrom (.first 0x2D) (NumberType.unsigned.enter (.first 0x2D))
      (lx.get.reset.add [0x2D]) = .ok (.integer, lx') := by
    show scanNumberFrom .minus .integer _ = _
    rw [scanNumberFrom_step hstart.input hnext, htype]
    exact hscan
  rw [next_number hin (.inl rfl), scanNumber_ok hnumber, hbuffer, numberToken, hmagnitude,
    if_pos (by omega)]
  rfl

/-! ## Values -/

theorem isInt64_toInt64 (i : Int) : IsInt64 (toInt64 i) := by
  have hge : -(((2 ^ 64 : Nat) : Int) / 2) ≤ toInt64 i := Int.le_bmod (by omega)
  have hlt : toInt64 i < (((2 ^ 64 : Nat) : Int) + 1) / 2 := Int.bmod_lt (by omega)
  constructor <;> omega

mutual

/-- A value as the library holds it: integers of 64 bits and objects in strict
key order; doubles are left out. -/
def Fits : Json → Prop
  | .numberInteger i => IsInt64 i
  | .numberUnsigned n => n < 2 ^ 64
  | .numberFloat _ => False
  | .array items => FitsItems items
  | .object fields => FitsFields fields
  | .null | .boolean _ | .string _ => True

def FitsItems : List Json → Prop
  | [] => True
  | v :: items => Fits v ∧ FitsItems items

def FitsFields : List (Bytes × Json) → Prop
  | [] => True
  | (k, v) :: fields => Fits v ∧ (∀ kv ∈ fields, k < kv.1) ∧ FitsFields fields

end

theorem fitsItems_iff : FitsItems items ↔ ∀ v ∈ items, Fits v := by
  induction items with
  | nil => simp [FitsItems]
  | cons v items ih => simp [FitsItems, ih]

mutual

/-- The text of such a value has no line break. -/
theorem oneLine_of_fits : ∀ j : Json, Fits j → OneLine j
  | .null, _ => by
      show 0x0A ∉ str "null"
      decide
  | .boolean b, _ => oneLine_boolean b
  | .numberInteger i, _ => oneLine_integer i
  | .numberUnsigned n, _ => oneLine_unsigned n
  | .string s, _ => oneLine_string s
  | .array items, h => oneLine_array (oneLine_items items h)
  | .object fields, h => oneLine_object (oneLine_fields fields h)

theorem oneLine_items : ∀ items : List Json, FitsItems items → ∀ v ∈ items, OneLine v
  | [], _ => List.forall_mem_nil _
  | v :: items, h => List.forall_mem_cons.mpr ⟨oneLine_of_fits v h.1, oneLine_items items h.2⟩

theorem oneLine_fields : ∀ fields : List (Bytes × Json), FitsFields fields →
    ∀ kv ∈ fields, OneLine kv.2
  | [], _ => List.forall_mem_nil _
  | (_, v) :: fields, h =>
    List.forall_mem_cons.mpr ⟨oneLine_of_fits v h.1, oneLine_fields fields h.2.2⟩

end

theorem mem_set {kv : Bytes × Json} (h : kv ∈ fields.set k v) : kv = (k, v) ∨ kv ∈ fields := by
  induction fields with
  | nil => exact .inl (List.mem_singleton.mp h)
  | cons kv' rest ih =>
    rw [Fields.set] at h
    split_ifs at h
    · obtain rfl | h := List.mem_cons.mp h
      · exact .inl rfl
      · exact .inr (List.mem_cons_of_mem _ h)
    · exact List.mem_cons.mp h
    · obtain rfl | h := List.mem_cons.mp h
      · exact .inr List.mem_cons_self
      · exact (ih h).imp_right (List.mem_cons_of_mem _)

/-- Assigning a field keeps the key order. -/
theorem FitsFields.set (hv : Fits v) :
    ∀ {fields : Fields}, FitsFields fields → FitsFields (fields.set k v)
  | [], _ => ⟨hv, nofun, trivial⟩
  | (k', v') :: rest, ⟨hv', hk', hrest⟩ => by
      rw [Fields.set]
      split_ifs with heq hlt
      · exact ⟨hv, heq ▸ hk', hrest⟩
      · refine ⟨hv, fun kv hkv => ?_, hv', hk', hrest⟩
        obtain rfl | hkv := List.mem_cons.mp hkv
        · exact hlt
        · exact List.lt_trans hlt (hk' kv hkv)
      · refine ⟨hv', fun kv hkv => ?_, FitsFields.set hv hrest⟩
        obtain rfl | hkv := mem_set hkv
        · exact Decidable.not_not.mp fun hle => heq (List.le_antisymm hle hlt)
        · exact hk' kv hkv

/-- The values of the assignments fit; their keys are in any order. -/
def FitsValues : List (Bytes × Json) → Prop
  | [] => True
  | (_, v) :: assignments => Fits v ∧ FitsValues assignments

theorem FitsFields.foldl_set : ∀ {assignments : List (Bytes × Json)}, FitsValues assignments →
    ∀ {fields : Fields}, FitsFields fields →
      FitsFields (assignments.foldl (fun fields kv => Fields.set fields kv.1 kv.2) fields)
  | [], _, _, hfields => hfields
  | _ :: _, h, _, hfields => foldl_set h.2 (hfields.set h.1)

theorem fits_objectOf {assignments : List (Bytes × Json)} (h : FitsValues assignments) :
    Fits (.object (Fields.of assignments)) := FitsFields.foldl_set h trivial

mutual

/-- What the text of a value is read as. -/
def reread : Json → Json
  | .numberInteger i => if 0 ≤ i then .numberUnsigned i.toNat else .numberInteger i
  | .array items => .array (rereadItems items)
  | .object fields => .object (rereadFields fields)
  | j => j

def rereadItems : List Json → List Json
  | [] => []
  | v :: items => reread v :: rereadItems items

def rereadFields : List (Bytes × Json) → List (Bytes × Json)
  | [] => []
  | (k, v) :: fields => (k, reread v) :: rereadFields fields

end

theorem run_inl {s' : ParserState} (h : step s = .ok (.inl s')) : run s = run s' := by
  rw [run]
  split
  next e herror => exact absurd (h.symm.trans herror) (by simp)
  next r hdone => exact absurd (h.symm.trans hdone) (by simp)
  next s'' hgo => rw [Sum.inl.inj (Except.ok.inj (h.symm.trans hgo))]

theorem run_token (h : stepToken frames t lx = .ok s) : run ⟨frames, .token t, lx⟩ = run s :=
  run_inl (by simp only [step, h]; rfl)

theorem run_value {frame : Frame} (h : stepValue frame frames v lx = .ok s) :
    run ⟨frame :: frames, .value v, lx⟩ = run s :=
  run_inl (by simp only [step, h]; rfl)

/-- A value starts at `lx`: the loop completes it, and `rest` remains. -/
structure ReadsAs (lx : Lexer) (v : Json) (rest : Bytes) : Prop where
  begins : (nextToken lx).1 ≠ .endArray
  completes : ∀ frames, ∃ lx', At lx' rest ∧
    run ⟨frames, .token (nextToken lx).1, (nextToken lx).2⟩ = run ⟨frames, .value v, lx'⟩

/-- A token that is a value by itself. -/
theorem Next.readsAs (h : Next lx t rest)
    (hstep : ∀ frames lx, stepToken frames t lx = .ok ⟨frames, .value v, lx⟩) :
    ReadsAs lx v rest := by
  obtain ⟨lx', hnext, hat⟩ := h
  constructor
  · rw [hnext]
    rintro rfl
    cases hstep [] lx'
  · intro frames
    refine ⟨lx', hat, ?_⟩
    rw [hnext]
    exact run_token (hstep frames lx')

theorem stops_comma : Stops (0x2C :: rest) := by
  intro b hb
  obtain rfl := Option.some.inj hb
  decide

theorem stops_close {b : UInt8} (hb : b = 0x5D ∨ b = 0x7D) : Stops (b :: rest) := by
  intro b' hb'
  obtain rfl := Option.some.inj hb'
  obtain rfl | rfl := hb <;> decide

/-- The array goes on after an item. -/
theorem run_item (h : At lx (0x2C :: rest)) :
    ∃ lx', At lx' rest ∧ run ⟨.array items :: frames, .value v, lx⟩ =
      run ⟨.array (items ++ [v]) :: frames, .token (nextToken lx').1, (nextToken lx').2⟩ := by
  obtain ⟨lx', hnext, hat⟩ := next_structural (t := .valueSeparator) h.input rfl rfl
  refine ⟨lx', hat, run_value ?_⟩
  simp only [stepValue, scan_eq_nextToken h, hnext, scan_eq_nextToken hat]

theorem run_lastItem (h : At lx (0x5D :: rest)) :
    ∃ lx', At lx' rest ∧ run ⟨.array items :: frames, .value v, lx⟩ =
      run ⟨frames, .value (.array (items ++ [v])), lx'⟩ := by
  obtain ⟨lx', hnext, hat⟩ := next_structural (t := .endArray) h.input rfl rfl
  refine ⟨lx', hat, run_value ?_⟩
  simp only [stepValue, scan_eq_nextToken h, hnext]

theorem readKey_at (hk : Utf8.WellFormed k)
    (hin : lx.input = str "\"" ++ escaped k ++ str "\":" ++ rest) :
    ∃ lx', At lx' rest ∧ readKey (nextToken lx).1 (nextToken lx).2 = .ok (k, nextToken lx') := by
  have hin' : lx.input = str "\"" ++ escaped k ++ str "\"" ++ 0x3A :: rest := by
    rw [hin]
    simp [str]
  obtain ⟨lx₁, hkey, hat₁⟩ := next_string hk hin'
  obtain ⟨lx₂, hcolon, hat₂⟩ := next_structural (t := .nameSeparator) hat₁.input rfl rfl
  refine ⟨lx₂, hat₂, ?_⟩
  rw [hkey]
  simp only [readKey, scan_eq_nextToken hat₁, hcolon, scan_eq_nextToken hat₂]

/-- The object goes on after a field. -/
theorem run_field {key : Bytes} (h : At lx (0x2C :: rest)) :
    ∃ lx₁, At lx₁ rest ∧ ∀ k lx',
      readKey (nextToken lx₁).1 (nextToken lx₁).2 = .ok (k, nextToken lx') →
      run ⟨.object fields key :: frames, .value v, lx⟩ =
        run ⟨.object (fields.set key v) k :: frames, .token (nextToken lx').1,
          (nextToken lx').2⟩ := by
  obtain ⟨lx₁, hnext, hat₁⟩ := next_structural (t := .valueSeparator) h.input rfl rfl
  refine ⟨lx₁, hat₁, fun k lx' hkey => run_value ?_⟩
  simp only [stepValue, scan_eq_nextToken h, hnext, scan_eq_nextToken hat₁, hkey]
  rfl

theorem run_lastField {key : Bytes} (h : At lx (0x7D :: rest)) :
    ∃ lx', At lx' rest ∧ run ⟨.object fields key :: frames, .value v, lx⟩ =
      run ⟨frames, .value (.object (fields.set key v)), lx'⟩ := by
  obtain ⟨lx', hnext, hat⟩ := next_structural (t := .endObject) h.input rfl rfl
  refine ⟨lx', hat, run_value ?_⟩
  simp only [stepValue, scan_eq_nextToken h, hnext]

/-! ## Objects are read in key order -/

theorem bytes_not_lt_of_lt {k' : Bytes} (h : k < k') : ¬ k' < k ∧ k' ≠ k :=
  ⟨List.lt_asymm h, fun heq => List.lt_irrefl k (heq ▸ h)⟩

/-- A key above all others goes to the end. -/
theorem Fields.set_last (h : ∀ kv ∈ fields, kv.1 < k) : fields.set k v = fields ++ [(k, v)] := by
  induction fields with
  | nil => rfl
  | cons kv fields ih =>
    obtain ⟨hkv, hfields⟩ := List.forall_mem_cons.mp h
    obtain ⟨hlt, hne⟩ := bytes_not_lt_of_lt hkv
    rw [Fields.set, if_neg hne, if_neg hlt, ih hfields]
    rfl

/-- Fields in key order are assigned one behind the other. -/
theorem foldl_set_sorted : ∀ (fields acc : Fields), FitsFields fields →
    (∀ kv ∈ acc, ∀ kv' ∈ fields, kv.1 < kv'.1) →
    fields.foldl (fun acc kv => Fields.set acc kv.1 (reread kv.2)) acc = acc ++ rereadFields fields
  | [], acc, _, _ => by simp [rereadFields]
  | (k, v) :: fields, acc, h, hacc => by
      obtain ⟨-, hk, hfields⟩ := h
      have hlast : ∀ kv ∈ acc, kv.1 < k := fun kv hkv => hacc kv hkv _ List.mem_cons_self
      rw [List.foldl_cons, Fields.set_last hlast, foldl_set_sorted fields _ hfields]
      · simp [rereadFields]
      · intro kv hkv kv' hkv'
        obtain hkv | hkv := List.mem_append.mp hkv
        · exact hacc kv hkv kv' (List.mem_cons_of_mem _ hkv')
        · obtain rfl := List.mem_singleton.mp hkv
          exact hk kv' hkv'

/-! ## Arrays and objects -/

theorem stepToken_array (h : At lx rest) (hne : (nextToken lx).1 ≠ .endArray) :
    stepToken frames .beginArray lx =
      .ok ⟨.array [] :: frames, .token (nextToken lx).1, (nextToken lx).2⟩ := by
  simp only [stepToken, scan_eq_nextToken h]

theorem stepToken_object (h : At lx rest)
    (hkey : readKey (nextToken lx).1 (nextToken lx).2 = .ok (k, nextToken lx')) :
    stepToken frames .beginObject lx =
      .ok ⟨.object [] k :: frames, .token (nextToken lx').1, (nextToken lx').2⟩ := by
  simp only [stepToken, scan_eq_nextToken h]
  split
  next lx₁ heq =>
    rw [heq] at hkey
    cases hkey
  next t lx₁ _ heq =>
    rw [heq] at hkey
    simp only [hkey]
    rfl

/-- Items start at `lx`, in an array that holds `acc`. -/
structure ReadsItems (lx : Lexer) (acc items : List Json) (rest : Bytes) : Prop where
  begins : (nextToken lx).1 ≠ .endArray
  completes : ∀ frames, ∃ lx', At lx' rest ∧
    run ⟨.array acc :: frames, .token (nextToken lx).1, (nextToken lx).2⟩ =
      run ⟨frames, .value (.array (acc ++ items)), lx'⟩

/-- Fields start at `lx`, in an object that holds `acc`. -/
def ReadsFields (lx : Lexer) (acc fields : Fields) (rest : Bytes) : Prop :=
  ∃ k lx₁, readKey (nextToken lx).1 (nextToken lx).2 = .ok (k, nextToken lx₁) ∧
    ∀ frames, ∃ lx', At lx' rest ∧
      run ⟨.object acc k :: frames, .token (nextToken lx₁).1, (nextToken lx₁).2⟩ =
        run ⟨frames, .value (.object
          (fields.foldl (fun acc kv => Fields.set acc kv.1 (reread kv.2)) acc)), lx'⟩

mutual

/-- The text of a value is read as the value. -/
theorem readsAs_text : ∀ (j : Json), Clean j → Fits j → ∀ {lx : Lexer} {rest : Bytes},
    lx.input = text j ++ rest → Stops rest → ReadsAs lx (reread j) rest
  | .null, _, _, _, _, hin, _ =>
    (next_literal (t := .literalNull) hin rfl rfl rfl).readsAs fun _ _ => rfl
  | .boolean true, _, _, _, _, hin, _ =>
    (next_literal (t := .literalTrue) hin rfl rfl rfl).readsAs fun _ _ => rfl
  | .boolean false, _, _, _, _, hin, _ =>
    (next_literal (t := .literalFalse) hin rfl rfl rfl).readsAs fun _ _ => rfl
  | .numberUnsigned _, _, h, _, _, hin, hrest => (next_unsigned h hrest hin).readsAs fun _ _ => rfl
  | .numberInteger (.ofNat n), _, h, _, _, hin, hrest => by
      have hlt : (n : Int) < 2 ^ 63 := h.2
      exact (next_unsigned (by omega) hrest hin).readsAs fun _ _ => rfl
  | .numberInteger (.negSucc k), _, h, _, _, hin, hrest => by
      have hle := h.1
      exact (next_negative (by omega) hrest hin).readsAs fun _ _ => rfl
  | .string _, h, _, _, _, hin, _ => (next_string h hin).readsAs fun _ _ => rfl
  | .array [], _, _, lx, rest, hin, _ => by
      have hin' : lx.input = 0x5B :: 0x5D :: rest := hin
      obtain ⟨lx₁, hopen, hat₁⟩ := next_structural (t := .beginArray) hin' rfl rfl
      obtain ⟨lx₂, hclose, hat₂⟩ := next_structural (t := .endArray) hat₁.input rfl rfl
      refine ⟨by rw [hopen]; nofun, fun frames => ⟨lx₂, hat₂, ?_⟩⟩
      rw [hopen]
      refine run_token ?_
      simp only [stepToken, scan_eq_nextToken hat₁, hclose]
      rfl
  | .array (v :: items), hc, h, lx, rest, hin, _ => by
      have hin' : lx.input = 0x5B :: (textItems (v :: items) ++ 0x5D :: rest) := by
        rw [hin]
        simp [text, str]
      obtain ⟨lx₁, hopen, hat₁⟩ := next_structural (t := .beginArray) hin' rfl rfl
      obtain ⟨hne, hitems⟩ := readsItems_text (v :: items) hc h (by simp) [] hat₁.input
      refine ⟨by rw [hopen]; nofun, fun frames => ?_⟩
      obtain ⟨lx₂, hat₂, hrun⟩ := hitems frames
      refine ⟨lx₂, hat₂, ?_⟩
      rw [hopen, run_token (stepToken_array hat₁ hne)]
      exact hrun
  | .object [], _, _, lx, rest, hin, _ => by
      have hin' : lx.input = 0x7B :: 0x7D :: rest := hin
      obtain ⟨lx₁, hopen, hat₁⟩ := next_structural (t := .beginObject) hin' rfl rfl
      obtain ⟨lx₂, hclose, hat₂⟩ := next_structural (t := .endObject) hat₁.input rfl rfl
      refine ⟨by rw [hopen]; nofun, fun frames => ⟨lx₂, hat₂, ?_⟩⟩
      rw [hopen]
      refine run_token ?_
      simp only [stepToken, scan_eq_nextToken hat₁, hclose]
      rfl
  | .object (kv :: fields), hc, h, lx, rest, hin, _ => by
      have hin' : lx.input = 0x7B :: (textFields (kv :: fields) ++ 0x7D :: rest) := by
        rw [hin]
        simp [text, str]
      obtain ⟨lx₁, hopen, hat₁⟩ := next_structural (t := .beginObject) hin' rfl rfl
      obtain ⟨k, lx₂, hkey, hfields⟩ := readsFields_text (kv :: fields) hc h (by simp) [] hat₁.input
      refine ⟨by rw [hopen]; nofun, fun frames => ?_⟩
      obtain ⟨lx₃, hat₃, hrun⟩ := hfields frames
      refine ⟨lx₃, hat₃, ?_⟩
      rw [hopen, run_token (stepToken_object hat₁ hkey), hrun, foldl_set_sorted _ [] h (by simp)]
      rfl

theorem readsItems_text : ∀ (items : List Json), CleanItems items → FitsItems items → items ≠ [] →
    ∀ (acc : List Json) {lx : Lexer} {rest : Bytes}, lx.input = textItems items ++ 0x5D :: rest →
      ReadsItems lx acc (rereadItems items) rest
  | [v], hc, h, _, acc, lx, rest, hin => by
      have hin' : lx.input = text v ++ 0x5D :: rest := by
        rw [hin]
        simp [textItems]
      obtain ⟨hne, hv⟩ := readsAs_text v hc.1 h.1 hin' (stops_close (.inl rfl))
      refine ⟨hne, fun frames => ?_⟩
      obtain ⟨lx₁, hat₁, hrun₁⟩ := hv (.array acc :: frames)
      obtain ⟨lx₂, hat₂, hrun₂⟩ := run_lastItem hat₁
      exact ⟨lx₂, hat₂, hrun₁.trans hrun₂⟩
  | v :: v' :: items, hc, h, _, acc, lx, rest, hin => by
      have hin' : lx.input = text v ++ 0x2C :: (textItems (v' :: items) ++ 0x5D :: rest) := by
        rw [hin]
        simp [textItems, str]
      obtain ⟨hne, hv⟩ := readsAs_text v hc.1 h.1 hin' stops_comma
      refine ⟨hne, fun frames => ?_⟩
      obtain ⟨lx₁, hat₁, hrun₁⟩ := hv (.array acc :: frames)
      obtain ⟨lx₂, hat₂, hrun₂⟩ := run_item hat₁
      obtain ⟨-, hitems⟩ :=
        readsItems_text (v' :: items) hc.2 h.2 (by simp) (acc ++ [reread v]) hat₂.input
      obtain ⟨lx₃, hat₃, hrun₃⟩ := hitems frames
      refine ⟨lx₃, hat₃, (hrun₁.trans hrun₂).trans ?_⟩
      rw [hrun₃, List.append_assoc]
      rfl

theorem readsFields_text : ∀ (fields : Fields), CleanFields fields → FitsFields fields → fields ≠ [] →
    ∀ (acc : Fields) {lx : Lexer} {rest : Bytes}, lx.input = textFields fields ++ 0x7D :: rest →
      ReadsFields lx acc fields rest
  | [(k, v)], hc, h, _, acc, lx, rest, hin => by
      have hin' : lx.input = str "\"" ++ escaped k ++ str "\":" ++ (text v ++ 0x7D :: rest) := by
        rw [hin]
        simp [textFields]
      obtain ⟨lx₁, hat₁, hkey⟩ := readKey_at hc.1.1 hin'
      obtain ⟨-, hv⟩ := readsAs_text v hc.1.2 h.1 hat₁.input (stops_close (.inr rfl))
      refine ⟨k, lx₁, hkey, fun frames => ?_⟩
      obtain ⟨lx₂, hat₂, hrun₂⟩ := hv (.object acc k :: frames)
      obtain ⟨lx₃, hat₃, hrun₃⟩ := run_lastField hat₂
      exact ⟨lx₃, hat₃, hrun₂.trans hrun₃⟩
  | (k, v) :: kv :: fields, hc, h, _, acc, lx, rest, hin => by
      have hin' : lx.input = str "\"" ++ escaped k ++ str "\":" ++
          (text v ++ 0x2C :: (textFields (kv :: fields) ++ 0x7D :: rest)) := by
        rw [hin]
        simp [textFields, str]
      obtain ⟨lx₁, hat₁, hkey⟩ := readKey_at hc.1.1 hin'
      obtain ⟨-, hv⟩ := readsAs_text v hc.1.2 h.1 hat₁.input stops_comma
      refine ⟨k, lx₁, hkey, fun frames => ?_⟩
      obtain ⟨lx₂, hat₂, hrun₂⟩ := hv (.object acc k :: frames)
      obtain ⟨lx₃, hat₃, hnext⟩ := run_field hat₂
      obtain ⟨k', lx₄, hkey', hfields⟩ :=
        readsFields_text (kv :: fields) hc.2 h.2.2 (by simp) (Fields.set acc k (reread v)) hat₃.input
      obtain ⟨lx₅, hat₅, hrun₅⟩ := hfields frames
      exact ⟨lx₅, hat₅, (hrun₂.trans (hnext k' lx₄ hkey')).trans hrun₅⟩

end

/-! ## The whole text -/

theorem text_head : ∀ (j : Json), Fits j → ∃ b bs, text j = b :: bs ∧ b ≠ 0xEF
  | .null, _ => ⟨_, _, rfl, by decide⟩
  | .boolean true, _ => ⟨_, _, rfl, by decide⟩
  | .boolean false, _ => ⟨_, _, rfl, by decide⟩
  | .numberUnsigned n, _ => by
      obtain ⟨d, digits, htext, hd⟩ := exists_digits n
      exact ⟨d, digits, htext, fun heq => absurd (heq ▸ hd) (by decide)⟩
  | .numberInteger (.ofNat n), _ => by
      obtain ⟨d, digits, htext, hd⟩ := exists_digits n
      exact ⟨d, digits, htext, fun heq => absurd (heq ▸ hd) (by decide)⟩
  | .numberInteger (.negSucc k), _ => ⟨_, _, rfl, by decide⟩
  | .string _, _ => ⟨_, _, rfl, by decide⟩
  | .array _, _ => ⟨_, _, rfl, by decide⟩
  | .object _, _ => ⟨_, _, rfl, by decide⟩

theorem scan_first {raw : Bytes} (hin : raw = b :: rest) (hb : b ≠ 0xEF) :
    ∃ lx : Lexer, lx.input = raw ∧ scan { input := raw } = nextToken lx := by
  have hinput : ({ input := raw } : Lexer).input = b :: rest := hin
  obtain ⟨-, hcur, -⟩ := get_at hinput
  refine ⟨({ input := raw } : Lexer).get.unget, (unget_reads { input := raw }).input.symm, ?_⟩
  · have hbom : skipBom { input := raw } = (true, ({ input := raw } : Lexer).get.unget) := by
      rw [skipBom, if_neg]
      rw [hcur]
      exact fun heq => hb (Option.some.inj heq)
    unfold scan
    rw [if_pos rfl, hbom]
    rfl

/-- `parse` reads back what `dump` writes, up to the type of a number. -/
theorem parse_text {j : Json} (hclean : Clean j) (h : Fits j) : parse (text j) = .ok (reread j) := by
  obtain ⟨b, bs, htext, hb⟩ := text_head j h
  obtain ⟨lx, hin, hscan⟩ := scan_first htext hb
  have hin' : lx.input = text j ++ [] := by rw [hin, List.append_nil]
  obtain ⟨-, hrun⟩ := readsAs_text j hclean h hin' nofun
  obtain ⟨lx', hat, hrun⟩ := hrun []
  obtain ⟨lx'', hend⟩ := next_end hat
  have hdone : run ⟨[], .value (reread j), lx'⟩ = .ok (reread j, lx') := by
    rw [run]
    rfl
  simp only [parse, hscan, hrun, hdone, bind, Except.bind, scan_eq_nextToken hat, hend]
  rfl

end ChatServer.Json
