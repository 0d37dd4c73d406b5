import ChatServer.Handler.Returns

/-!
# Requests in the worker pool

Any number of `handle` calls run at once, one call of an interface a step. The
repositories answer as they like, in UTF-8; `GetSession` and `GetToken` answer
with what was bound before. A finished login or `resume_session` adds to what
is bound. `handle_returns_iff` says which packets are answered.
-/

namespace ChatServer.Handler

open Base Json Codec Service Net Utf8

/-! ## Packets that are not decoded -/

/-- The bytes the JSON parser has read when it reports an error; the error text
quotes the last of them. -/
def readBytes (raw : Bytes) : Bytes :=
  match parse raw with
  | .error (.parseError byte _) => raw.take byte
  | _ => []

/-- What an error text can quote of the packet is UTF-8. -/
def QuotedUtf8 (raw : Bytes) : Prop := WellFormed (readBytes raw)

instance (raw : Bytes) : Decidable (QuotedUtf8 raw) :=
  inferInstanceAs (Decidable (WellFormed (readBytes raw)))

theorem decodeMessage_fields {raw : Bytes} {msg : Message} (h : decodeMessage raw = .ok msg) :
    ∃ request n, parse raw = .ok request ∧
      string? (request.field? (str "msg_type")) = some msg.msgType ∧
      integer? (request.field? (str "seq")) = some n ∧ msg.seq = toUInt64 n ∧
      request.field? (str "data") = some msg.data ∧
      (msg.token = [] ∨ request.field? (str "token") = some (.string msg.token)) := by
  unfold decodeMessage at h
  split at h
  next => cases h
  next request hrequest =>
    refine ⟨request, ?_⟩
    split at h
    next => cases h
    next msgType htype =>
      split at h
      next => cases h
      next n hseq =>
        split at h
        next data hdata =>
          split at h
          next =>
            obtain rfl := Except.ok.inj h
            exact ⟨n, hrequest, htype, hseq, rfl, hdata, .inl rfl⟩
          next token htoken =>
            obtain rfl := Except.ok.inj h
            exact ⟨n, hrequest, htype, hseq, rfl, hdata, .inr htoken⟩
          next => cases h
        next => cases h

theorem decodeMessage_clean {raw : Bytes} {msg : Message} (h : decodeMessage raw = .ok msg) :
    MessageClean msg := by
  obtain ⟨request, -, hrequest, htype, -, -, hdata, htoken⟩ := decodeMessage_fields h
  have hclean := parse_clean hrequest
  refine ⟨hclean.string htype, ?_, hclean.field hdata⟩
  rcases htoken with htoken | htoken
  · exact htoken ▸ wellFormed_nil
  · exact hclean.field htoken

/-- The error text of a rejected packet is UTF-8 exactly when what it quotes
is. -/
theorem decodeMessage_error {raw : Bytes} {msg : Message} {err : Bytes}
    (h : decodeMessage raw = .error (msg, err)) :
    WellFormed msg.msgType ∧ (WellFormed err ↔ QuotedUtf8 raw) := by
  have literal : ∀ text, (WellFormed (str text) ↔ WellFormed []) := fun text =>
    ⟨fun _ => wellFormed_nil, fun _ => str_wellFormed text⟩
  unfold decodeMessage at h
  unfold QuotedUtf8 readBytes
  -- only the text of a parser error quotes the packet
  split at h
  next e he =>
    obtain ⟨rfl, rfl⟩ := Prod.mk.inj (Except.error.inj h)
    refine ⟨wellFormed_nil, (wellFormed_append_iff (str_wellFormed _) _).trans ?_⟩
    have hok := parse_error_ok he
    rw [he]
    cases e with
    | parseError byte what => exact hok
    | outOfRange what => exact ⟨fun _ => wellFormed_nil, fun _ => hok⟩
    | typeError what => exact hok.elim
  next json hjson =>
    rw [hjson]
    split at h
    next =>
      obtain ⟨rfl, rfl⟩ := Prod.mk.inj (Except.error.inj h)
      exact ⟨wellFormed_nil, literal _⟩
    next msgType htype =>
      split at h
      next =>
        obtain ⟨rfl, rfl⟩ := Prod.mk.inj (Except.error.inj h)
        exact ⟨wellFormed_nil, literal _⟩
      next seq hseq =>
        split at h
        next data hdata =>
          split at h
          next => cases h
          next => cases h
          next =>
            obtain ⟨rfl, rfl⟩ := Prod.mk.inj (Except.error.inj h)
            exact ⟨(parse_clean hjson).string htype, literal _⟩
        next =>
          obtain ⟨rfl, rfl⟩ := Prod.mk.inj (Except.error.inj h)
          exact ⟨wellFormed_nil, literal _⟩

/-- A rejected packet is answered with `INVALID_PARAM`. -/
def AnswersRejection (raw : Bytes) (r : HandleResult) : Prop :=
  ∀ msg err, decodeMessage raw = .error (msg, err) →
    encodeResponse (makeInvalidParamResponse msg err) = .ok r.response

theorem handle_answers (w : Wiring) {raw : Bytes} (h : QuotedUtf8 raw) (conn : ConnId)
    (peerIp : Bytes) :
    (handle w raw conn peerIp).Returns Utf8Answers
      fun r => AnswersRejection raw r ∧ SessionTexts r.pendingSession := by
  unfold handle
  split
  next msg err hdecode =>
    obtain ⟨htype, herr⟩ := decodeMessage_error hdecode
    have hclean := responseTo_clean htype .invalidParam (herr.mpr h)
    refine .bind (.ofExcept (Q := fun body => encodeResponse (makeInvalidParamResponse msg err) =
      .ok body) ((encodeResponse_isOk _).mpr hclean) fun _ hbody => hbody) fun body hbody => ?_
    refine .pure ⟨fun msg' err' hdecode' => ?_, sessionTexts_default⟩
    obtain ⟨rfl, rfl⟩ := Prod.mk.inj (Except.error.inj (hdecode.symm.trans hdecode'))
    exact hbody
  next msg hdecode =>
    have hanswers : Answers False msg (handleMessage w msg conn peerIp) :=
      handleMessage_answers (decodeMessage_clean hdecode) w conn peerIp
    refine (hanswers.restrict fun _ _ _ h => ⟨h, False.elim⟩).mono
      fun r hr => ⟨fun msg' err' hdecode' => ?_, hr.session⟩
    cases hdecode.symm.trans hdecode'

/-- Any other packet is answered by an exception. -/
theorem handle_throws (w : Wiring) {raw : Bytes} (h : ¬ QuotedUtf8 raw) (conn : ConnId)
    (peerIp : Bytes) : ∃ e, handle w raw conn peerIp = .throw e := by
  unfold handle
  split
  next msg err hdecode =>
    obtain ⟨-, herr⟩ := decodeMessage_error hdecode
    cases hencode : encodeResponse (makeInvalidParamResponse msg err) with
    | error e =>
      refine ⟨e, ?_⟩
      show (Prog.ofExcept (encodeResponse (makeInvalidParamResponse msg err))).bind _ = _
      rw [hencode]
      rfl
    | ok body =>
      have hok : (encodeResponse (makeInvalidParamResponse msg err)).isOk = true := by
        rw [hencode]
        rfl
      exact absurd (herr.mp ((encodeResponse_isOk _).mp hok).message) h
  next msg hdecode =>
    refine absurd ?_ h
    unfold QuotedUtf8 readBytes
    split
    next byte what hparse => simp [decodeMessage, hparse] at hdecode
    next => exact wellFormed_nil

/-! ## Running requests -/

/-- A request in a worker: its packet and what is left of `handle`. -/
structure Running where
  raw : Bytes
  rest : Action HandleResult

structure Requests (κ : Type) where
  running : κ → Option Running := fun _ => none
  /-- the sessions handed to `applyBindSession` so far -/
  bound : List ConnectionSession := []

/-- `answer k env`: the call that request `k` waits for is answered by `env`. -/
inductive RequestLabel (κ : Type) : Type 1
  | start (k : κ) (raw : Bytes) (conn : ConnId) (peerIp : Bytes)
  | answer (k : κ) (env : ∀ γ, Call γ → γ)
  | finish (k : κ)

namespace Requests

variable {κ : Type} [DecidableEq κ]

def set (s : Requests κ) (k : κ) (q : Option Running) : Requests κ :=
  { s with running := Function.update s.running k q }

/-- The session a result wants bound. -/
def bindings (r : HandleResult) : List ConnectionSession :=
  if r.sessionAction = .bind then [r.pendingSession] else []

def step (w : Wiring) (s : Requests κ) : RequestLabel κ → Option (Requests κ)
  | .start k raw conn peerIp =>
    match s.running k with
    | none => some (s.set k (some ⟨raw, handle w raw conn peerIp⟩))
    | some _ => none
  | .answer k env =>
    match s.running k with
    | some ⟨raw, .call op next⟩ => some (s.set k (some ⟨raw, next (env _ op)⟩))
    | _ => none
  | .finish k =>
    match s.running k with
    | some ⟨_, .pure r⟩ => some { s.set k none with bound := s.bound ++ bindings r }
    | some ⟨_, .throw _⟩ => some (s.set k none)
    | _ => none

/-- The answers that are possible when `bound` are the sessions bound so far. -/
def Admits (bound : List ConnectionSession) : ∀ γ, Call γ → γ → Prop
  | _, .getSession _, r => ∀ s ∈ r, s ∈ bound
  | _, .getToken _, r => ∀ t ∈ r, ∃ s ∈ bound, t.username = s.username
  | γ, op, r => Utf8Answers γ op r

/-- The step answers a call within `Admits`. -/
def Admitted (s : Requests κ) : RequestLabel κ → Prop
  | .answer k env => ∀ raw γ (op : Call γ) next, s.running k = some ⟨raw, .call op next⟩ →
      Admits s.bound γ op (env γ op)
  | _ => True

end Requests

/-- The worker pools as far as `handle` is concerned. -/
def requests (κ : Type) [DecidableEq κ] (w : Wiring) : Lts (Requests κ) (RequestLabel κ) where
  Init s := s = {}
  step := Requests.step w

/-- What is left of a request returns, or was bound to throw. -/
structure Running.Ok (q : Running) : Prop where
  returns : QuotedUtf8 q.raw →
    q.rest.Returns Utf8Answers fun r => AnswersRejection q.raw r ∧ SessionTexts r.pendingSession
  throws : ¬ QuotedUtf8 q.raw → ∃ e, q.rest = .throw e

structure Requests.Inv {κ : Type} (s : Requests κ) : Prop where
  bound : ∀ t ∈ s.bound, SessionTexts t
  running : ∀ k, ∀ q ∈ s.running k, q.Ok

theorem Requests.Inv.utf8 {κ : Type} {s : Requests κ} (h : s.Inv) {γ : Type} {op : Call γ} {r : γ}
    (hr : Requests.Admits s.bound γ op r) : Utf8Answers γ op r := by
  cases op with
  | getSession conn => exact fun t ht => h.bound t (hr t ht)
  | getToken token =>
    intro t ht
    obtain ⟨b, hb, hname⟩ := hr t ht
    exact hname ▸ (h.bound b hb).username
  | _ => exact hr

section

variable {κ : Type} [DecidableEq κ] {w : Wiring} {s s' : Requests κ}

/-- Replacing one request keeps the invariant if the new one is fine. -/
theorem Requests.Inv.set (h : s.Inv) {k : κ} {q' : Option Running} (hq' : ∀ q ∈ q', q.Ok) :
    (s.set k q').Inv := by
  refine ⟨h.bound, fun j q hq => ?_⟩
  by_cases hj : j = k
  · subst hj
    have hself : (s.set j q').running j = q' := Function.update_self ..
    rw [hself] at hq
    exact hq' q hq
  · have hother : (s.set k q').running j = s.running j := Function.update_of_ne hj ..
    rw [hother] at hq
    exact h.running j q hq

theorem Requests.Inv.clear (h : s.Inv) (k : κ) : (s.set k none).Inv := h.set fun _ hq => nomatch hq

theorem handle_ok (w : Wiring) (raw : Bytes) (conn : ConnId) (peerIp : Bytes) :
    Running.Ok ⟨raw, handle w raw conn peerIp⟩ :=
  ⟨fun hquoted => handle_answers w hquoted conn peerIp,
    fun hquoted => handle_throws w hquoted conn peerIp⟩

/-- An answered call leaves a request that is fine. -/
theorem Running.Ok.answer {raw : Bytes} {γ : Type} {op : Call γ} {next : γ → Action HandleResult}
    (h : Running.Ok ⟨raw, .call op next⟩) {r : γ} (hr : Utf8Answers γ op r) :
    Running.Ok ⟨raw, next r⟩ := by
  refine ⟨fun hquoted => h.returns hquoted r hr, fun hquoted => ?_⟩
  -- a request that throws waits for no answer
  obtain ⟨e, he⟩ := h.throws hquoted
  cases he

/-- A finished request wants a UTF-8 session bound. -/
theorem Running.Ok.finish {raw : Bytes} {r : HandleResult} (h : Running.Ok ⟨raw, .pure r⟩) :
    ∀ t ∈ Requests.bindings r, SessionTexts t := by
  intro t ht
  unfold Requests.bindings at ht
  split_ifs at ht
  · obtain rfl := List.mem_singleton.mp ht
    by_cases hquoted : QuotedUtf8 raw
    · exact (h.returns hquoted).2
    · obtain ⟨e, he⟩ := h.throws hquoted
      cases he
  · cases ht

theorem Requests.Inv.step (h : s.Inv) {l : RequestLabel κ} (hok : s.Admitted l)
    (hstep : s.step w l = some s') : s'.Inv := by
  cases l with
  | start k raw conn peerIp =>
    simp only [Requests.step] at hstep
    split at hstep
    next =>
      obtain rfl := Option.some.inj hstep
      refine h.set fun q hq => ?_
      obtain rfl := Option.some.inj hq
      exact handle_ok w raw conn peerIp
    next => cases hstep
  | answer k env =>
    simp only [Requests.step] at hstep
    split at hstep
    next raw γ op next hk =>
      obtain rfl := Option.some.inj hstep
      refine h.set fun q hq => ?_
      obtain rfl := Option.some.inj hq
      exact (h.running k _ hk).answer (h.utf8 (hok raw γ op next hk))
    next => cases hstep
  | finish k =>
    simp only [Requests.step] at hstep
    split at hstep
    next raw r hk =>
      obtain rfl := Option.some.inj hstep
      refine ⟨fun t ht => ?_, (h.clear k).running⟩
      -- bound before, or by this call
      obtain ht | ht := List.mem_append.mp ht
      · exact h.bound t ht
      · exact (h.running k _ hk).finish t ht
    next =>
      obtain rfl := Option.some.inj hstep
      exact h.clear k
    next => cases hstep

theorem requests_inv (hs : (requests κ w).Reach Requests.Admitted s) : s.Inv := by
  have hind : (requests κ w).Inductive Requests.Admitted Requests.Inv := by
    constructor
    · rintro s rfl
      exact ⟨List.forall_mem_nil _, fun _ _ hq => nomatch hq⟩
    · intro s l s' h hok hstep
      exact h.step hok hstep
  exact hind.invariant hs

/-- In every reachable state, every request in a worker returns, and answers its
packet with `INVALID_PARAM` if it was rejected, whatever the interfaces answer:
exactly if what the error text can quote of the packet is UTF-8. -/
theorem handle_returns_iff (hs : (requests κ w).Reach Requests.Admitted s) {k : κ} {q : Running}
    (hk : s.running k = some q) :
    q.rest.Returns (Requests.Admits s.bound) (AnswersRejection q.raw) ↔ QuotedUtf8 q.raw := by
  have hinv := requests_inv hs
  constructor
  · intro hreturns
    by_contra hquoted
    obtain ⟨e, he⟩ := (hinv.running k q hk).throws hquoted
    rw [he] at hreturns
    exact hreturns
  · intro hquoted
    have hkeeps := ((hinv.running k q hk).returns hquoted).mono fun r hr => hr.1
    exact hkeeps.restrict fun γ op r hr => hinv.utf8 hr

end

/-- A server without the optional components. -/
def plainWiring : Wiring where
  sessionStore := false
  rateLimiter := false
  dedupCache := false
  remotePushPublisher := false
  friendService := false
  groupService := false
  serverId := []
  registerRateLimit := 0
  registerRateWindowSeconds := 0
  loginRateLimit := 0
  loginRateWindowSeconds := 0
  sendRateLimit := 0
  sendRateWindowSeconds := 0
  pid := 1
  stringHash := fun _ => 0

/-- The state after one packet has arrived. -/
def arrived (raw : Bytes) : Requests Unit :=
  ({} : Requests Unit).set () (some ⟨raw, handle plainWiring raw 1 []⟩)

theorem arrived_reach (raw : Bytes) :
    (requests Unit plainWiring).Reach Requests.Admitted (arrived raw) := by
  have hinit : (requests Unit plainWiring).Reach Requests.Admitted {} := .init rfl
  have hadmitted : ({} : Requests Unit).Admitted (.start () raw 1 []) := trivial
  exact .step hinit hadmitted rfl

/-- A lone letter is no JSON; the error text quotes it and can be sent. -/
theorem handle_returns_letter :
    (handle plainWiring (str "x") 1 []).Returns (Requests.Admits [])
      (AnswersRejection (str "x")) := by
  have hrunning : (arrived (str "x")).running () =
    some ⟨str "x", handle plainWiring (str "x") 1 []⟩ := rfl
  exact (handle_returns_iff (arrived_reach (str "x")) hrunning).mpr (by decide +kernel)

/-- The packet `é`, well-formed UTF-8: the parser stops after the first byte of
the letter, the error text quotes that byte, and `handle` throws. -/
theorem handle_throws_letter :
    WellFormed [0xC3, 0xA9] ∧ (∃ msg err, decodeMessage [0xC3, 0xA9] = .error (msg, err)) ∧
      ∃ s : Requests Unit, (requests Unit plainWiring).Reach Requests.Admitted s ∧
        ∃ q, s.running () = some q ∧ q.raw = [0xC3, 0xA9] ∧ ∃ e, q.rest = .throw e := by
  refine ⟨by decide, ?_, _, arrived_reach [0xC3, 0xA9], _, rfl, rfl, ?_⟩
  · have herror : (decodeMessage [0xC3, 0xA9]).isOk = false := by decide +kernel
    cases hdecode : decodeMessage [0xC3, 0xA9] with
    | ok msg => simp [hdecode, Except.isOk, Except.toBool] at herror
    | error p => exact ⟨p.1, p.2, rfl⟩
  · exact handle_throws plainWiring (by decide +kernel) 1 []

end ChatServer.Handler
