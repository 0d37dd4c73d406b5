import ChatServer.Handler.Requests

/-!
# Responses answer their requests

A client that parses the response to its request finds the type and the `seq` of the
decoded message in it. That `seq` is the `uint64_t` that `decodeMessage` converted the
request's integer to, so the integer itself comes back exactly when it is one.

* `response_correlates` — what the client reads;
* `response_frameable` — the response arrives as one packet.
-/

namespace ChatServer.Handler

open Base Json Codec Service Net

variable {msg : Message} {resp : Response}

/-! ## What the client reads -/

theorem errorNumber_isInt64 (code : ErrorCode) : IsInt64 (errorNumber code) := by
  cases code <;> constructor <;> simp [errorNumber]

/-- An encoded response is read back, with its type and its `seq`. -/
theorem parse_encodeResponse {body : Bytes} (hdata : FitsFields resp.data)
    (hseq : resp.seq < 2 ^ 64) (h : encodeResponse resp = .ok body) :
    ∃ fields, parse body = .ok (.object fields) ∧
      string? (field? (.object fields) (str "msg_type")) = some resp.msgType ∧
      integer? (field? (.object fields) (str "seq")) = some (resp.seq : Int) := by
  have hclean : resp.Clean := (encodeResponse_isOk resp).mp (by rw [h]; rfl)
  have hfits : Fits resp.toJson := by
    unfold Response.toJson
    exact fits_objectOf ⟨trivial, hseq, errorNumber_isInt64 _, trivial, hdata, trivial⟩
  have hbody : text resp.toJson = body :=
    Except.ok.inj ((encodeResponse_eq_text hclean).symm.trans h)
  have hparse := parse_text hclean.toJson hfits
  rw [hbody, resp.toJson_eq] at hparse
  exact ⟨_, hparse, rfl, rfl⟩

/-- The answers of the interfaces: texts are UTF-8, and integers are values of
their types. -/
def TypedAnswers (γ : Type) (op : Call γ) (r : γ) : Prop :=
  Utf8Answers γ op r ∧ IntegerAnswers γ op r

/-- What a client that parses the response to a request finds in it. -/
def ReadsBack (msgType : Bytes) (seq : Int) (r : HandleResult) : Prop :=
  ∃ fields, parse r.response = .ok (.object fields) ∧
    string? (field? (.object fields) (str "msg_type")) = some (msgType ++ str "_resp") ∧
    integer? (field? (.object fields) (str "seq")) = some seq

theorem Correlated.readsBack {r : HandleResult} (h : Correlated True msg r)
    (hseq : msg.seq < 2 ^ 64) : ReadsBack msg.msgType msg.seq r := by
  obtain ⟨resp, hresp, hbody⟩ := h.response
  obtain ⟨fields, hparse, htype, hread⟩ :=
    parse_encodeResponse (hresp.data trivial) (hresp.seq ▸ hseq) hbody
  rw [hresp.msgType] at htype
  rw [hresp.seq] at hread
  exact ⟨fields, hparse, htype, hread⟩

theorem handle_correlates (w : Wiring) {raw : Bytes} (hmsg : decodeMessage raw = .ok msg)
    (conn : ConnId) (peerIp : Bytes) :
    (handle w raw conn peerIp).Returns TypedAnswers (Correlated True msg) := by
  rw [handle, hmsg]
  exact (handleMessage_answers (decodeMessage_clean hmsg) w conn peerIp).restrict
    fun _ _ _ h => ⟨h.1, fun _ => h.2⟩

theorem handle_readsBack (w : Wiring) {raw : Bytes} (hmsg : decodeMessage raw = .ok msg)
    (conn : ConnId) (peerIp : Bytes) :
    (handle w raw conn peerIp).Returns TypedAnswers (ReadsBack msg.msgType msg.seq) := by
  obtain ⟨-, n, -, -, -, hseq, -⟩ := decodeMessage_fields hmsg
  have hlt : msg.seq < 2 ^ 64 := by
    rw [hseq, toUInt64]
    omega
  exact (handle_correlates w hmsg conn peerIp).mono fun r hr => hr.readsBack hlt

theorem toUInt64_eq_iff (n : Int) : (toUInt64 n : Int) = n ↔ 0 ≤ n ∧ n < 2 ^ 64 := by
  rw [toUInt64]
  omega

/-- `handle` answers every accepted request, and the response is an object of the
request's type; it has the request's `seq` exactly when that is a `uint64_t`. -/
theorem response_correlates (w : Wiring) {raw : Bytes} {request : Json} {msgType : Bytes} {n : Int}
    (haccepted : (decodeMessage raw).isOk = true) (hrequest : parse raw = .ok request)
    (htype : string? (request.field? (str "msg_type")) = some msgType)
    (hseq : integer? (request.field? (str "seq")) = some n) (conn : ConnId) (peerIp : Bytes) :
    (handle w raw conn peerIp).Returns TypedAnswers fun r => ∃ seq,
      ReadsBack msgType seq r ∧ (seq = n ↔ 0 ≤ n ∧ n < 2 ^ 64) := by
  cases hmsg : decodeMessage raw with
  | error e =>
    rw [hmsg] at haccepted
    cases haccepted
  | ok msg =>
    obtain ⟨request', n', hrequest', htype', hseq', hmsgSeq, -⟩ := decodeMessage_fields hmsg
    obtain rfl := Except.ok.inj (hrequest.symm.trans hrequest')
    obtain rfl := Option.some.inj (htype.symm.trans htype')
    obtain rfl := Option.some.inj (hseq.symm.trans hseq')
    refine (handle_readsBack w hmsg conn peerIp).mono fun r hr => ⟨msg.seq, hr, ?_⟩
    rw [hmsgSeq]
    exact toUInt64_eq_iff n

/-- A heartbeat with the given `seq`, as its client writes it. -/
def heartbeatWith (seq : Json) : Json :=
  .object [(str "data", .object []), (str "msg_type", .string (str "heartbeat")), (str "seq", seq)]

theorem parse_heartbeatWith (seq : Json) (hclean : Clean seq) (hseq : Fits seq) :
    parse (text (heartbeatWith seq)) = .ok (heartbeatWith (reread seq)) := by
  have hkeys : str "data" < str "msg_type" ∧ str "data" < str "seq" ∧
      str "msg_type" < str "seq" := by decide
  have hfits : Fits (heartbeatWith seq) :=
    ⟨trivial, by simpa using ⟨hkeys.1, hkeys.2.1⟩, trivial, by simpa using hkeys.2.2, hseq, nofun,
      trivial⟩
  have hcleanAll : Clean (heartbeatWith seq) :=
    ⟨⟨str_wellFormed _, trivial⟩, ⟨str_wellFormed _, str_wellFormed _⟩,
      ⟨str_wellFormed _, hclean⟩, trivial⟩
  exact parse_text hcleanAll hfits

theorem response_correlates_heartbeat :
    (handle plainWiring (text (heartbeatWith (.numberUnsigned 7))) 1 []).Returns TypedAnswers
      (ReadsBack (str "heartbeat") 7) := by
  have hfits : Fits (.numberUnsigned 7) := Nat.lt_of_sub_eq_succ rfl
  have hparse := parse_heartbeatWith (.numberUnsigned 7) trivial hfits
  refine (response_correlates (n := 7) plainWiring (by decide +kernel) hparse rfl rfl 1 []).mono ?_
  rintro r ⟨seq, hread, hiff⟩
  obtain rfl := hiff.mpr ⟨by decide, by decide⟩
  exact hread

/-- Nobody is logged in, and it is the epoch. -/
def idleAnswers : ∀ γ, Call γ → Option γ
  | _, .getSession _ => some none
  | _, .now => some 0
  | _, _ => none

theorem idleAnswers_typed : ∀ γ op, ∀ r ∈ idleAnswers γ op, TypedAnswers γ op r := by
  intro γ op r hr
  cases op with
  | getSession conn =>
    obtain rfl := Option.some.inj hr
    exact ⟨nofun, nofun⟩
  | now =>
    obtain rfl := Option.some.inj hr
    exact ⟨trivial, isInt64_zero⟩
  | _ => cases hr

/-- A heartbeat with `seq` -1 is answered with `seq` 18446744073709551615. -/
theorem negative_seq_changed :
    parse (text (heartbeatWith (.numberInteger (-1)))) = .ok (heartbeatWith (.numberInteger (-1))) ∧
      ∃ r, (handle plainWiring (text (heartbeatWith (.numberInteger (-1)))) 1 []).run idleAnswers =
          some (some r) ∧
        ReadsBack (str "heartbeat") 18446744073709551615 r := by
  have hfits : Fits (.numberInteger (-1)) := ⟨by decide, by decide⟩
  have hparse := parse_heartbeatWith (.numberInteger (-1)) trivial hfits
  refine ⟨hparse, ?_⟩
  have hanswered : (((handle plainWiring (text (heartbeatWith (.numberInteger (-1)))) 1 []).run
      idleAnswers).any Option.isSome) = true := by decide +kernel
  obtain ⟨outcome, hrun, hsome⟩ := (Option.any_eq_true _ _).mp hanswered
  obtain ⟨r, rfl⟩ := Option.isSome_iff_exists.mp hsome
  refine ⟨r, hrun, ?_⟩
  have hdecode : decodeMessage (text (heartbeatWith (.numberInteger (-1)))) =
      .ok { msgType := str "heartbeat", seq := 18446744073709551615, data := .object [] } := by
    rw [decodeMessage, hparse]
    rfl
  exact (handle_readsBack plainWiring hdecode 1 []).ensures.of_yields
    (Prog.yields_of_run idleAnswers_typed hrun)

/-! ## On the way to the client -/

/-- A response is one line. -/
theorem Correlated.oneLine {r : HandleResult} (h : Correlated True msg r) :
    newline ∉ r.response ∧ r.response.getLast? ≠ some carriageReturn := by
  obtain ⟨resp, hresp, hbody⟩ := h.response
  have htext : r.response = text resp.toJson :=
    Except.ok.inj (hbody.symm.trans (encodeResponse_eq_text hresp.clean))
  constructor
  · rw [htext, resp.toJson_eq]
    apply oneLine_object
    simp only [List.forall_mem_cons, oneLine_string, oneLine_integer, oneLine_unsigned, true_and]
    exact ⟨oneLine_object (oneLine_fields _ (hresp.data trivial)), List.forall_mem_nil _⟩
  · -- the last byte is the closing brace
    rw [htext, resp.toJson_eq, text, List.getLast?_append]
    show some (0x7D : UInt8) ≠ some carriageReturn
    decide

/-- Every accepted request is answered with one line, whatever its length, and a peer
that is fed the encoded response, in whatever chunks, gets it as one packet exactly if
it is not too long. -/
theorem response_frameable (w : Wiring) {raw : Bytes} (haccepted : (decodeMessage raw).isOk = true)
    (conn : ConnId) (peerIp : Bytes) :
    (handle w raw conn peerIp).Returns TypedAnswers fun r =>
      newline ∉ r.response ∧ r.response.getLast? ≠ some carriageReturn ∧
        ∀ chunks : List Bytes, chunks.flatten = Codec.encode r.response →
          ((({} : PacketCodec).feedAll chunks).ok = true ∧
              (({} : PacketCodec).feedAll chunks).packets = [r.response] ↔
            r.response.length ≤ kMaxPacketSize) := by
  cases hmsg : decodeMessage raw with
  | error e =>
    rw [hmsg] at haccepted
    cases haccepted
  | ok msg =>
    refine (handle_correlates w hmsg conn peerIp).mono fun r hr => ?_
    obtain ⟨hline, hend⟩ := hr.oneLine
    exact ⟨hline, hend, fun chunks hfed => feedAll_encode_iff hline hend hfed⟩

/-- The answer to a heartbeat, received in two pieces. -/
theorem response_frameable_heartbeat :
    ∃ r, (handle plainWiring (text (heartbeatWith (.numberUnsigned 7))) 1 []).run idleAnswers =
        some (some r) ∧
      (({} : PacketCodec).feedAll
        [(Codec.encode r.response).take 20, (Codec.encode r.response).drop 20]).packets =
          [r.response] := by
  have hanswered : (((handle plainWiring (text (heartbeatWith (.numberUnsigned 7))) 1 []).run
      idleAnswers).any fun outcome =>
        outcome.any fun r => r.response.length ≤ kMaxPacketSize) = true := by decide +kernel
  obtain ⟨outcome, hrun, houtcome⟩ := (Option.any_eq_true _ _).mp hanswered
  obtain ⟨r, rfl, hlength⟩ := (Option.any_eq_true _ _).mp houtcome
  obtain ⟨-, -, hfed⟩ := (response_frameable plainWiring (by decide +kernel) 1 []).ensures.of_yields
    (Prog.yields_of_run idleAnswers_typed hrun)
  refine ⟨r, hrun, ((hfed _ ?_).mpr (of_decide_eq_true hlength)).2⟩
  rw [List.flatten_cons, List.flatten_singleton, List.take_append_drop]

end ChatServer.Handler
