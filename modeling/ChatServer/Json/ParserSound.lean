import ChatServer.Json.Parser

/-!
# What the parser guarantees

`StateOk` is the invariant of the parser's loop, over the lexer's `Tracks`:
everything built so far is UTF-8. `ErrorOk` describes the exceptions: the only
text of the input an error quotes is the token it stopped in.

* `parse_clean` — every string of a parsed value is UTF-8;
* `parse_error_ok` — the text of a parse error is UTF-8 exactly when the bytes
  the parser had asked for are.
-/

namespace ChatServer.Json

open Base

/-! ## The texts of errors -/

private theorem ascii_nat (n : Nat) : Utf8.Ascii (natText n) := by
  intro b hb
  have hdigit := natText_digit hb
  show b.toNat ≤ 127
  omega

private theorem hexBytes_ascii (b : UInt8) : Utf8.Ascii (hexBytes b) := by
  revert b
  exact Utf8.forall_byte (by decide +kernel)

theorem LexError.text_ascii (e : LexError) : Utf8.Ascii e.text := by
  cases e with
  | controlCharacter b =>
    have hnames : ∀ name ∈ controlNames, Utf8.Ascii name := by
      simp only [controlNames, List.forall_mem_cons, str_ascii, true_and]
      exact List.forall_mem_nil _
    have hescapes : ∀ e ∈ controlEscapes, Utf8.Ascii e.2 := by
      simp only [controlEscapes, List.forall_mem_cons, str_ascii, true_and]
      exact List.forall_mem_nil _
    have hname : Utf8.Ascii (controlNames.getD b.toNat []) := by
      rw [List.getD_eq_getElem?_getD]
      cases hget : controlNames[b.toNat]? with
      | none => exact Utf8.ascii_nil
      | some name => exact hnames name (List.mem_of_getElem? hget)
    have hescape : Utf8.Ascii ((controlEscapes.lookup b).getD []) := by
      cases hlook : controlEscapes.lookup b with
      | none => exact Utf8.ascii_nil
      | some text => exact hescapes (b, text) (mem_of_lookup hlook)
    simp only [text, Utf8.ascii_append_iff]
    exact ⟨⟨⟨⟨⟨⟨str_ascii _, hexBytes_ascii b⟩, str_ascii _⟩, hname⟩, str_ascii _⟩,
      hexBytes_ascii b⟩, hescape⟩
  | _ => exact str_ascii _

theorem Token.typeName_ascii (t : Token) : Utf8.Ascii t.typeName := by
  cases t <;> exact str_ascii _

/-- Spelling out control characters does not change whether a text is UTF-8. -/
theorem getTokenString_wellFormed_iff (lx : Lexer) :
    Utf8.WellFormed (getTokenString lx) ↔ Utf8.WellFormed lx.tokenString := by
  refine Utf8.wellFormed_flatMap_iff (fun b => ?_) lx.tokenString
  unfold spellControl
  split_ifs with hb
  · refine .inr ⟨UInt8.le_trans hb (by decide), by simp [str], ?_⟩
    simp only [Utf8.ascii_append_iff]
    exact ⟨⟨str_ascii _, hexBytes_ascii b⟩, str_ascii _⟩
  · exact .inl rfl

/-- An exception of the parser for the text `raw`. -/
def ErrorOk (raw : Bytes) : JsonException → Prop
  | .parseError byte what => Utf8.WellFormed what ↔ Utf8.WellFormed (raw.take byte)
  | .outOfRange what => Utf8.WellFormed what
  | .typeError _ => False

variable {raw : Bytes} {lx : Lexer} {t : Token}

/-- A parse error is as well formed as the message in it. -/
theorem parseError101_ok {text : Bytes}
    (h : Utf8.WellFormed text ↔ Utf8.WellFormed (raw.take lx.position.charsReadTotal)) :
    ErrorOk raw (parseError101 lx text) := by
  refine Iff.trans (Utf8.wellFormed_append_iff ?_ text) h
  refine Utf8.wellFormed_of_ascii ?_
  simp only [Utf8.ascii_append_iff]
  exact ⟨⟨⟨⟨str_ascii _, ascii_nat _⟩, str_ascii _⟩, ascii_nat _⟩, str_ascii _⟩

/-- A syntax error quotes the input only after a lexical error. -/
theorem syntaxError_ok {expected : Option Bytes} {context : Bytes} (htracks : Tracks raw lx)
    (hok : TokenOk t lx) (hexpected : ∀ name, expected = some name → Utf8.Ascii name)
    (hcontext : Utf8.Ascii context) : ErrorOk raw (syntaxError t lx expected context) := by
  refine parseError101_ok (Iff.trans ?_ htracks.wellFormed_iff.symm)
  have hbefore : Utf8.WellFormed (str "syntax error while parsing " ++ context ++ str " - ") := by
    refine Utf8.wellFormed_of_ascii ?_
    simp only [Utf8.ascii_append_iff]
    exact ⟨⟨str_ascii _, hcontext⟩, str_ascii _⟩
  have hafter : Utf8.Ascii (expectedText expected) := by
    cases expected with
    | none => exact Utf8.ascii_nil
    | some name => exact Utf8.ascii_append_iff.mpr ⟨str_ascii _, hexpected name rfl⟩
  unfold exceptionMessage
  rw [Utf8.wellFormed_append_ascii_iff hafter, Utf8.wellFormed_append_iff hbefore]
  split
  next e =>
    have htext : Utf8.WellFormed (e.text ++ str "; last read: '") :=
      Utf8.wellFormed_of_ascii (Utf8.ascii_append_iff.mpr ⟨e.text_ascii, str_ascii _⟩)
    rw [Utf8.wellFormed_append_ascii_iff (str_ascii _), Utf8.wellFormed_append_iff htext]
    exact getTokenString_wellFormed_iff lx
  next hne =>
    have htext : Utf8.WellFormed (str "unexpected " ++ t.typeName) :=
      Utf8.wellFormed_of_ascii (Utf8.ascii_append_iff.mpr ⟨str_ascii _, t.typeName_ascii⟩)
    exact iff_of_true htext (hok.text fun e he => hne e he)

theorem outOfRange406_ok (raw : Bytes) (h : Utf8.WellFormed lx.tokenString) :
    ErrorOk raw (outOfRange406 lx) := by
  have hquoted := (getTokenString_wellFormed_iff lx).mpr h
  exact ((str_wellFormed _).append hquoted).append (str_wellFormed _)

/-! ## The invariant of the loop -/

def Frame.Clean : Frame → Prop
  | .array items => CleanItems items
  | .object fields key => CleanFields fields ∧ Utf8.WellFormed key

/-- The last token and the lexer behind it. -/
def TokenState (raw : Bytes) (t : Token) (lx : Lexer) : Prop := Tracks raw lx ∧ TokenOk t lx

def Work.Ok (raw : Bytes) (lx : Lexer) : Work → Prop
  | .token t => TokenState raw t lx
  | .value v => v.Clean ∧ Settled raw lx

/-- Everything built so far is UTF-8. -/
structure StateOk (raw : Bytes) (s : ParserState) : Prop where
  frames : ∀ f ∈ s.frames, f.Clean
  work : s.work.Ok raw s.lexer

/-- What a step that starts well ends in. -/
def Ends {α : Type} (raw : Bytes) (Q : α → Prop) : Except JsonException α → Prop
  | .ok a => Q a
  | .error e => ErrorOk raw e

theorem Settled.scan {lx' : Lexer} (h : Settled raw lx) (hscan : Json.scan lx = (t, lx')) :
    TokenState raw t lx' := by
  have hspec := scan_spec h
  rw [hscan] at hspec
  exact hspec

/-- A token that is no error leaves the lexer between two tokens. -/
theorem TokenState.settled (h : TokenState raw t lx) (ht : ∀ e, t ≠ .parseError e) :
    Settled raw lx := ⟨h.1, h.2.text ht⟩

theorem TokenState.syntaxError {expected : Option Bytes} {context : Bytes}
    (h : TokenState raw t lx) (hexpected : Utf8.Ascii (expected.getD []))
    (hcontext : Utf8.Ascii context) : ErrorOk raw (Json.syntaxError t lx expected context) :=
  syntaxError_ok h.1 h.2 (fun name hname => by rw [hname] at hexpected; exact hexpected) hcontext

theorem readKey_ends (h : TokenState raw t lx) :
    Ends raw (fun r => Utf8.WellFormed r.1 ∧ TokenState raw r.2.1 r.2.2) (readKey t lx) := by
  unfold readKey
  split
  next key =>
    have hsettled : Settled raw lx := h.settled (by simp)
    split
    next lx' hscan =>
      have hnext : Settled raw lx' := (hsettled.scan hscan).settled (by simp)
      exact ⟨h.2.value key rfl, hnext.scan rfl⟩
    next t' lx' _ hscan => exact (hsettled.scan hscan).syntaxError (str_ascii _) (str_ascii _)
  next => exact h.syntaxError (str_ascii _) (str_ascii _)

/-- Sequencing: an exception of the first step is one of the whole. -/
theorem Ends.bind {α β : Type} {P : α → Prop} {Q : β → Prop} {x : Except JsonException α}
    {f : α → Except JsonException β} (hx : Ends raw P x) (hf : ∀ a, P a → Ends raw Q (f a)) :
    Ends raw Q (x >>= f) := by
  cases x with
  | error e => exact hx
  | ok a => exact hf a hx

theorem stepToken_ends {frames : List Frame} (hframes : ∀ f ∈ frames, f.Clean)
    (h : TokenState raw t lx) : Ends raw (StateOk raw) (stepToken frames t lx) := by
  have hvalue : ∀ v : Json, v.Clean → (∀ e, t ≠ .parseError e) →
      StateOk raw ⟨frames, .value v, lx⟩ :=
    fun v hv ht => ⟨hframes, hv, h.settled ht⟩
  unfold stepToken
  split
  · have hsettled : Settled raw lx := h.settled (by simp)
    split
    next lx' hscan =>
      exact ⟨hframes, trivial, (hsettled.scan hscan).settled (by simp)⟩
    next t' lx' _ hscan =>
      refine (readKey_ends (hsettled.scan hscan)).bind fun r hr => ?_
      exact ⟨List.forall_mem_cons.mpr ⟨⟨trivial, hr.1⟩, hframes⟩, hr.2⟩
  · have hsettled : Settled raw lx := h.settled (by simp)
    split
    next lx' hscan =>
      exact ⟨hframes, trivial, (hsettled.scan hscan).settled (by simp)⟩
    next t' lx' _ hscan =>
      exact ⟨List.forall_mem_cons.mpr ⟨trivial, hframes⟩, hsettled.scan hscan⟩
  · split_ifs
    · exact hvalue _ trivial (by simp)
    · exact outOfRange406_ok raw (h.2.text (by simp))
  · exact hvalue _ trivial (by simp)
  · exact hvalue _ trivial (by simp)
  · exact hvalue _ trivial (by simp)
  · exact hvalue _ trivial (by simp)
  · exact hvalue _ (h.2.value _ rfl) (by simp)
  · exact hvalue _ trivial (by simp)
  · exact h.syntaxError Utf8.ascii_nil (str_ascii _)
  · split_ifs
    · have hread : Utf8.WellFormed lx.tokenString := h.2.text (by simp)
      exact parseError101_ok (iff_of_true (str_wellFormed _) (h.1.wellFormed_iff.mpr hread))
    · exact h.syntaxError (str_ascii _) (str_ascii _)
  · exact h.syntaxError (str_ascii _) (str_ascii _)

theorem stepValue_ends {frame : Frame} {frames : List Frame} {v : Json} (hframe : frame.Clean)
    (hframes : ∀ f ∈ frames, f.Clean) (hv : v.Clean) (h : Settled raw lx) :
    Ends raw (StateOk raw) (stepValue frame frames v lx) := by
  unfold stepValue
  split
  next items =>
    have hitems : CleanItems (items ++ [v]) :=
      cleanItems_iff.mpr (List.forall_mem_append.mpr
        ⟨cleanItems_iff.mp hframe, List.forall_mem_singleton.mpr hv⟩)
    split
    next lx' hscan =>
      have hnext : Settled raw lx' := (h.scan hscan).settled (by simp)
      exact ⟨List.forall_mem_cons.mpr ⟨hitems, hframes⟩, hnext.scan rfl⟩
    next lx' hscan => exact ⟨hframes, hitems, (h.scan hscan).settled (by simp)⟩
    next t lx' _ _ hscan => exact (h.scan hscan).syntaxError (str_ascii _) (str_ascii _)
  next fields key =>
    have hfields : CleanFields (fields.set key v) := hframe.1.set hframe.2 hv
    split
    next lx' hscan =>
      have hnext : Settled raw lx' := (h.scan hscan).settled (by simp)
      refine (readKey_ends (hnext.scan rfl)).bind fun r hr => ?_
      exact ⟨List.forall_mem_cons.mpr ⟨⟨hfields, hr.1⟩, hframes⟩, hr.2⟩
    next lx' hscan => exact ⟨hframes, hfields, (h.scan hscan).settled (by simp)⟩
    next t lx' _ _ hscan => exact (h.scan hscan).syntaxError (str_ascii _) (str_ascii _)

/-- One round keeps the invariant. -/
theorem step_ends {s : ParserState} (h : StateOk raw s) :
    Ends raw (fun r => match r with
      | .inl s' => StateOk raw s'
      | .inr (v, lx) => v.Clean ∧ Settled raw lx) (step s) := by
  have hwork := h.work
  have hframes := h.frames
  have hmap : ∀ {x : Except JsonException ParserState}, Ends raw (StateOk raw) x →
      Ends raw (fun r : ParserState ⊕ Json × Lexer => match r with
        | .inl s' => StateOk raw s'
        | .inr (v, lx) => v.Clean ∧ Settled raw lx) (x.map .inl) := by
    intro x hx
    cases x with
    | error e => exact hx
    | ok s' => exact hx
  obtain ⟨t, hw, hstep⟩ | ⟨v, frame, frames, hw, hf, hstep⟩ | ⟨v, hw, hstep⟩ := step_cases s
  · rw [hw] at hwork
    rw [hstep]
    exact hmap (stepToken_ends hframes hwork)
  · rw [hw] at hwork
    rw [hf] at hframes
    obtain ⟨hframe, hframes⟩ := List.forall_mem_cons.mp hframes
    rw [hstep]
    exact hmap (stepValue_ends hframe hframes hwork.1 hwork.2)
  · rw [hw] at hwork
    rw [hstep]
    exact hwork

/-- The whole loop keeps the invariant. -/
theorem run_ends (s : ParserState) (h : StateOk raw s) :
    Ends raw (fun r => r.1.Clean ∧ Settled raw r.2) (run s) := by
  fun_induction run s with
  | case1 s e hstep | case2 s r hstep =>
    have hends := step_ends h
    rw [hstep] at hends
    exact hends
  | case3 s s' hstep ih =>
    have hends := step_ends h
    rw [hstep] at hends
    exact ih hends

/-! ## `json::parse` -/

theorem parse_ends (raw : Bytes) : Ends raw Clean (parse raw) := by
  have hstart : Settled raw { input := raw } :=
    ⟨⟨by simp, [], by simp, Utf8.wellFormed_nil⟩, Utf8.wellFormed_nil⟩
  unfold parse
  split
  next t lx hscan =>
    have hfirst : StateOk raw ⟨[], .token t, lx⟩ :=
      ⟨List.forall_mem_nil _, hstart.scan hscan⟩
    refine (run_ends _ hfirst).bind fun r hr => ?_
    obtain ⟨v, lx'⟩ := r
    dsimp only
    split
    next => exact hr.1
    next t' lx'' _ hscan' => exact (hr.2.scan hscan').syntaxError (str_ascii _) (str_ascii _)

/-- A parsed value holds only UTF-8. -/
theorem parse_clean {j : Json} (h : parse raw = .ok j) : j.Clean := by
  have hends := parse_ends raw
  rw [h] at hends
  exact hends

/-- How the text of an exception depends on the input. -/
theorem parse_error_ok {e : JsonException} (h : parse raw = .error e) : ErrorOk raw e := by
  have hends := parse_ends raw
  rw [h] at hends
  exact hends

end ChatServer.Json
