import ChatServer.Common.Text
import ChatServer.Json.Scan

/-!
# The JSON parser

`detail::parser` with the DOM builder behind it, without a callback and with
exceptions on. The stack of open arrays and objects replaces both the
`states` of the parser and the references of the builder: a container joins
its parent when it is closed. The parser is iterative: `step` is one round of
its loop, `step_measure` shows that every round makes progress, and `run` is
the loop.
-/

namespace ChatServer.Json

open Base

/-! ## Error texts -/

/-- `token_type_name`. -/
def Token.typeName : Token → Bytes
  | .literalTrue => str "true literal"
  | .literalFalse => str "false literal"
  | .literalNull => str "null literal"
  | .valueString _ => str "string literal"
  | .valueUnsigned _ | .valueInteger _ | .valueFloat _ _ => str "number literal"
  | .beginArray => str "'['"
  | .beginObject => str "'\x7b'"
  | .endArray => str "']'"
  | .endObject => str "'\x7d'"
  | .nameSeparator => str "':'"
  | .valueSeparator => str "','"
  | .parseError _ => str "<parse error>"
  | .endOfInput => str "end of input"

/-- The name of `token_type::literal_or_value`. -/
def literalOrValue : Bytes := str "'[', '\x7b', or a literal"

/-- Control characters are spelled out in error texts. -/
def spellControl (b : UInt8) : Bytes :=
  if b ≤ 0x1F then str "<U+00" ++ hexBytes b ++ str ">" else [b]

/-- `get_token_string`. -/
def getTokenString (lx : Lexer) : Bytes := lx.tokenString.flatMap spellControl

/-- The end of a message, with the name of the expected token. -/
def expectedText : Option Bytes → Bytes
  | some name => str "; expected " ++ name
  | none => []

/-- `exception_message`. -/
def exceptionMessage (t : Token) (lx : Lexer) (expected : Option Bytes) (context : Bytes) : Bytes :=
  str "syntax error while parsing " ++ context ++ str " - " ++
    (match t with
      | .parseError e => e.text ++ str "; last read: '" ++ getTokenString lx ++ str "'"
      | t => str "unexpected " ++ t.typeName) ++
    expectedText expected

/-- `parse_error::create(101, position, text)`. -/
def parseError101 (lx : Lexer) (text : Bytes) : JsonException :=
  .parseError lx.position.charsReadTotal
    (str "[json.exception.parse_error.101] parse error at line " ++
      natText (lx.position.linesRead + 1) ++ str ", column " ++
      natText lx.position.charsReadCurrentLine ++ str ": " ++ text)

def syntaxError (t : Token) (lx : Lexer) (expected : Option Bytes) (context : Bytes) :
    JsonException := parseError101 lx (exceptionMessage t lx expected context)

/-- `out_of_range::create(406, ...)`. -/
def outOfRange406 (lx : Lexer) : JsonException :=
  .outOfRange (str "[json.exception.out_of_range.406] number overflow parsing '" ++
    getTokenString lx ++ str "'")

/-! ## `sax_parse_internal` -/

/-- An open array or object; an object with the key of the value to come. -/
inductive Frame where
  | array (items : List Json)
  | object (fields : Fields) (key : Bytes)
  deriving Repr

/-- What the next round of the loop starts with: the last token, or a value
just completed (`skip_to_state_evaluation`). -/
inductive Work where
  | token (t : Token)
  | value (v : Json)
  deriving Repr

structure ParserState where
  frames : List Frame
  work : Work
  lexer : Lexer
  deriving Repr

/-- A key, its separator and the token after it; `t` is the last token. -/
def readKey (t : Token) (lx : Lexer) : Except JsonException (Bytes × Token × Lexer) :=
  match t with
  | .valueString key =>
    match scan lx with
    | (.nameSeparator, lx) => .ok (key, scan lx)
    | (t, lx) => .error (syntaxError t lx (some (str "':'")) (str "object separator"))
  | t => .error (syntaxError t lx (some (str "string literal")) (str "object key"))

/-- The switch on the last token. -/
def stepToken (frames : List Frame) (t : Token) (lx : Lexer) : Except JsonException ParserState :=
  match t with
  | .beginObject =>
    match scan lx with
    | (.endObject, lx) => .ok ⟨frames, .value (.object []), lx⟩
    | (t, lx) => do
        let (key, t, lx) ← readKey t lx
        return ⟨.object [] key :: frames, .token t, lx⟩
  | .beginArray =>
    match scan lx with
    | (.endArray, lx) => .ok ⟨frames, .value (.array []), lx⟩
    | (t, lx) => .ok ⟨.array [] :: frames, .token t, lx⟩
  | .valueFloat text finite =>
    if finite then .ok ⟨frames, .value (.numberFloat text), lx⟩ else .error (outOfRange406 lx)
  | .literalFalse => .ok ⟨frames, .value (.boolean false), lx⟩
  | .literalNull => .ok ⟨frames, .value .null, lx⟩
  | .literalTrue => .ok ⟨frames, .value (.boolean true), lx⟩
  | .valueInteger i => .ok ⟨frames, .value (.numberInteger i), lx⟩
  | .valueString s => .ok ⟨frames, .value (.string s), lx⟩
  | .valueUnsigned n => .ok ⟨frames, .value (.numberUnsigned n), lx⟩
  | .parseError e => .error (syntaxError (.parseError e) lx none (str "value"))
  | .endOfInput =>
    if lx.position.charsReadTotal = 1 then
      .error (parseError101 lx (str ("attempting to parse an empty input; check that your " ++
        "input string or stream contains the expected JSON")))
    else .error (syntaxError .endOfInput lx (some literalOrValue) (str "value"))
  | t => .error (syntaxError t lx (some literalOrValue) (str "value"))

/-- The evaluation of the innermost open container after one of its values. -/
def stepValue (frame : Frame) (frames : List Frame) (v : Json) (lx : Lexer) :
    Except JsonException ParserState :=
  match frame with
  | .array items =>
    match scan lx with
    | (.valueSeparator, lx) => .ok ⟨.array (items ++ [v]) :: frames, .token (scan lx).1, (scan lx).2⟩
    | (.endArray, lx) => .ok ⟨frames, .value (.array (items ++ [v])), lx⟩
    | (t, lx) => .error (syntaxError t lx (some (str "']'")) (str "array"))
  | .object fields key =>
    match scan lx with
    | (.valueSeparator, lx) => do
        let (key', t, lx) ← readKey (scan lx).1 (scan lx).2
        return ⟨.object (fields.set key v) key' :: frames, .token t, lx⟩
    | (.endObject, lx) => .ok ⟨frames, .value (.object (fields.set key v)), lx⟩
    | (t, lx) => .error (syntaxError t lx (some (str "'\x7d'")) (str "object"))

/-- One round of the loop; the right case leaves it. -/
def step (s : ParserState) : Except JsonException (ParserState ⊕ Json × Lexer) :=
  match s.work, s.frames with
  | .token t, frames => (stepToken frames t s.lexer).map .inl
  | .value v, frame :: frames => (stepValue frame frames v s.lexer).map .inl
  | .value v, [] => .ok (.inr (v, s.lexer))

/-! ## Every round makes progress -/

/-- A token is still to be looked at, a value is not; after the end of the input
no round follows. -/
def Work.weight : Work → Nat
  | .value _ => 0
  | .token .endOfInput => 1
  | .token _ => 2

def ParserState.measure (s : ParserState) : Nat := 3 * s.lexer.input.length + s.work.weight

theorem Work.weight_token_le (t : Token) : (Work.token t).weight ≤ 2 := by
  cases t <;> simp [Work.weight]

/-- Reading a token lowers the measure below that of any token before it. -/
theorem measure_scan (lx : Lexer) :
    3 * (scan lx).2.input.length + (Work.token (scan lx).1).weight < 3 * lx.input.length + 2 := by
  obtain ⟨hle, hlt⟩ := scan_length lx
  by_cases ht : (scan lx).1 = .endOfInput
  · rw [ht]
    show 3 * _ + 1 < _
    omega
  · have hdown := hlt ht
    have hweight := Work.weight_token_le (scan lx).1
    omega

theorem readKey_length {t t' : Token} {lx lx' : Lexer} {key : Bytes}
    (h : readKey t lx = .ok (key, t', lx')) :
    t ≠ .endOfInput ∧ lx'.input.length ≤ lx.input.length := by
  unfold readKey at h
  split at h
  · split at h
    next lx₁ hscan =>
      have hle := (scan_length lx).1
      rw [hscan] at hle
      have hle' := (scan_length lx₁).1
      simp only [Except.ok.injEq, Prod.mk.injEq] at h
      rw [h.2] at hle'
      exact ⟨by simp, Nat.le_trans hle' hle⟩
    next => cases h
  · cases h

private theorem scan_lt {t : Token} {lx lx' : Lexer} (hscan : scan lx = (t, lx'))
    (ht : t ≠ .endOfInput) : lx'.input.length < lx.input.length := by
  have hlt := (scan_length lx).2
  rw [hscan] at hlt
  exact hlt ht

/-- A container ends with its last token. -/
private theorem measure_value {t : Token} {lx lx' : Lexer} (hscan : scan lx = (t, lx'))
    (ht : t ≠ .endOfInput) (frames : List Frame) (v : Json) :
    ParserState.measure ⟨frames, .value v, lx'⟩ < 3 * lx.input.length := by
  have hdown := scan_lt hscan ht
  simp only [ParserState.measure, Work.weight]
  omega

/-- After a key the loop goes on with the token behind it. -/
private theorem measure_key {t : Token} {lx₀ lx : Lexer} {frame : Bytes → Frame}
    {frames : List Frame} {s : ParserState} (hscan : scan lx₀ = (t, lx))
    (h : (do let (key, t, lx) ← readKey t lx; return ⟨frame key :: frames, .token t, lx⟩) =
      Except.ok s) :
    s.measure < 3 * lx₀.input.length := by
  cases hkey : readKey t lx with
  | error e => simp [hkey, bind, Except.bind] at h
  | ok r =>
    obtain ⟨key, t', lx'⟩ := r
    simp only [hkey, bind, Except.bind, pure, Except.pure, Except.ok.injEq] at h
    subst h
    obtain ⟨ht, hle⟩ := readKey_length hkey
    have hdown := scan_lt hscan ht
    have hweight := Work.weight_token_le t'
    simp only [ParserState.measure]
    omega

theorem stepToken_measure {frames : List Frame} {t : Token} {lx : Lexer} {s : ParserState}
    (h : stepToken frames t lx = .ok s) :
    s.measure < 3 * lx.input.length + (Work.token t).weight := by
  -- a scalar only turns its token into a value
  have hvalue : ∀ {v : Json} {k : Nat}, s = ⟨frames, .value v, lx⟩ → 0 < k →
      s.measure < 3 * lx.input.length + k := by
    rintro v k rfl hk
    simp only [ParserState.measure, Work.weight]
    omega
  unfold stepToken at h
  split at h
  · -- an object
    show s.measure < 3 * lx.input.length + 2
    refine Nat.lt_add_right 2 ?_
    split at h
    next hscan =>
      cases h
      exact measure_value hscan (by simp) _ _
    next hscan => exact measure_key hscan h
  · -- an array
    show s.measure < 3 * lx.input.length + 2
    split at h
    next hscan =>
      cases h
      exact Nat.lt_add_right 2 (measure_value hscan (by simp) _ _)
    next hscan =>
      have hmeasure := measure_scan lx
      rw [hscan] at hmeasure
      cases h
      exact hmeasure
  · split_ifs at h
    exact hvalue (Except.ok.inj h).symm (by simp [Work.weight])
  · exact hvalue (Except.ok.inj h).symm (by simp [Work.weight])
  · exact hvalue (Except.ok.inj h).symm (by simp [Work.weight])
  · exact hvalue (Except.ok.inj h).symm (by simp [Work.weight])
  · exact hvalue (Except.ok.inj h).symm (by simp [Work.weight])
  · exact hvalue (Except.ok.inj h).symm (by simp [Work.weight])
  · exact hvalue (Except.ok.inj h).symm (by simp [Work.weight])
  · cases h
  · split_ifs at h
  · cases h

theorem stepValue_measure {frame : Frame} {frames : List Frame} {v : Json} {lx : Lexer}
    {s : ParserState} (h : stepValue frame frames v lx = .ok s) :
    s.measure < 3 * lx.input.length := by
  unfold stepValue at h
  split at h <;> split at h
  next lx' hscan =>
    cases h
    have hdown := scan_lt hscan (by simp)
    have hnext := measure_scan lx'
    simp only [ParserState.measure]
    omega
  next hscan =>
    cases h
    exact measure_value hscan (by simp) _ _
  next => cases h
  next lx' hscan =>
    have hdown := scan_lt hscan (by simp)
    have hnext := measure_key rfl h
    omega
  next hscan =>
    cases h
    exact measure_value hscan (by simp) _ _
  next => cases h

/-- What a round is: a token or a value of an open container is handled, or the
value was the outermost one. -/
theorem step_cases (s : ParserState) :
    (∃ t, s.work = .token t ∧ step s = (stepToken s.frames t s.lexer).map .inl) ∨
      (∃ v frame frames, s.work = .value v ∧ s.frames = frame :: frames ∧
        step s = (stepValue frame frames v s.lexer).map .inl) ∨
      ∃ v, s.work = .value v ∧ step s = .ok (.inr (v, s.lexer)) := by
  obtain ⟨frames, work, lx⟩ := s
  cases work with
  | token t => exact .inl ⟨t, rfl, rfl⟩
  | value v =>
    cases frames with
    | nil => exact .inr (.inr ⟨v, rfl, rfl⟩)
    | cons frame frames => exact .inr (.inl ⟨v, frame, frames, rfl, rfl, rfl⟩)

private theorem map_inl_eq_inl {x : Except JsonException ParserState} {s : ParserState}
    (h : x.map Sum.inl = .ok (.inl s : ParserState ⊕ Json × Lexer)) : x = .ok s := by
  cases x with
  | error e => simp [Except.map] at h
  | ok s₁ => simpa [Except.map] using h

theorem step_measure {s s' : ParserState} (h : step s = .ok (.inl s')) : s'.measure < s.measure := by
  obtain ⟨t, hwork, hstep⟩ | ⟨v, frame, frames, hwork, -, hstep⟩ | ⟨v, -, hstep⟩ := step_cases s
  · rw [hstep] at h
    have hlt := stepToken_measure (map_inl_eq_inl h)
    rwa [← hwork] at hlt
  · rw [hstep] at h
    exact Nat.lt_of_lt_of_le (stepValue_measure (map_inl_eq_inl h)) (Nat.le_add_right _ _)
  · rw [hstep] at h
    cases h

/-- `sax_parse_internal`. -/
def run (s : ParserState) : Except JsonException (Json × Lexer) :=
  match _hstep : step s with
  | .error e => .error e
  | .ok (.inr r) => .ok r
  | .ok (.inl s') => run s'
termination_by s.measure
decreasing_by exact step_measure _hstep

/-- `json::parse`: after the value only the end of the input may come. -/
def parse (raw : Bytes) : Except JsonException Json :=
  match scan { input := raw } with
  | (t, lx) => do
      let (v, lx) ← run ⟨[], .token t, lx⟩
      match scan lx with
      | (.endOfInput, _) => return v
      | (t, lx) => .error (syntaxError t lx (some (str "end of input")) (str "value"))

end ChatServer.Json
