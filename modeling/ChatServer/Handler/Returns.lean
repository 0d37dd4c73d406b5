import ChatServer.Handler.MessageHandler
import ChatServer.Json.RoundTrip
import ChatServer.Service.Answers

/-!
# When `handle` returns, and with what

Under UTF-8 answers every handler of a decoded message returns, and the session
it wants bound has UTF-8 texts. The response has the type and the `seq` of the
message. If the integers of the answers are values of their types, so are those of
the response.

* `AnswerTo` — the response belongs to the message and can be written;
* `dispatch_answers` — every handler in the chain encodes such a response.
-/

namespace ChatServer.Handler

open Base Json Codec Service Net Utf8

/-! ## Values -/

/-- The value can be written and, if `typed`, read again. -/
def Writable (typed : Prop) (v : Json) : Prop := v.Clean ∧ (typed → Fits v)

/-- Fields with such values. -/
def Assigns (typed : Prop) : List (Bytes × Json) → Prop
  | [] => True
  | (k, v) :: fields => (WellFormed k ∧ Writable typed v) ∧ Assigns typed fields

variable {typed : Prop} {fields : List (Bytes × Json)}

theorem Assigns.clean (h : Assigns typed fields) : CleanFields fields := by
  induction fields with
  | nil => trivial
  | cons kv fields ih => exact ⟨⟨h.1.1, h.1.2.1⟩, ih h.2⟩

theorem Assigns.fits (h : Assigns typed fields) (ht : typed) : FitsValues fields := by
  induction fields with
  | nil => trivial
  | cons kv fields ih => exact ⟨h.1.2.2 ht, ih h.2⟩

/-- A field under one of the source's keys. -/
theorem named {key : String} {p : Prop} (h : p) : WellFormed (str key) ∧ p :=
  ⟨str_wellFormed key, h⟩

theorem textField {key : String} {s : Bytes} (h : WellFormed s) :
    WellFormed (str key) ∧ Writable typed (.string s) := named ⟨h, fun _ => trivial⟩

theorem numberField {key : String} {i : Int} (h : typed → IsInt64 i) :
    WellFormed (str key) ∧ Writable typed (.numberInteger i) := named ⟨trivial, h⟩

theorem arrayField {key : String} {items : List Json} (h : ∀ v ∈ items, Writable typed v) :
    WellFormed (str key) ∧ Writable typed (.array items) :=
  named ⟨cleanItems_iff.mpr fun v hv => (h v hv).1,
    fun ht => fitsItems_iff.mpr fun v hv => (h v hv).2 ht⟩

theorem writable_objectOf (h : Assigns typed fields) :
    Writable typed (.object (Fields.of fields)) := ⟨.of h.clean, fun ht => fits_objectOf (h.fits ht)⟩

/-! ## Responses -/

variable {msg : Message} {message : Bytes} {resp : Response}

theorem response_clean (msgType : String) (msg : Message) (code : ErrorCode)
    (h : WellFormed message) : (response msgType msg code message).Clean :=
  ⟨str_wellFormed _, h, trivial⟩

theorem responseTo_clean (hmsg : WellFormed msg.msgType) (code : ErrorCode)
    (h : WellFormed message) : (responseTo msg code message).Clean :=
  ⟨hmsg.append (str_wellFormed _), h, trivial⟩

theorem push_clean (msgType message : String) :
    ({ msgType := str msgType, message := str message } : Response).Clean :=
  ⟨str_wellFormed _, str_wellFormed _, trivial⟩

theorem withRetry_clean (h : resp.Clean) (n : Nat) : (withRetry resp n).Clean := by
  unfold withRetry
  split_ifs
  · exact h.assign ⟨named trivial, trivial⟩
  · exact h

/-- A response to the message that can be written; if `typed`, its integers fit their
types. -/
structure AnswerTo (typed : Prop) (msg : Message) (resp : Response) : Prop where
  clean : resp.Clean
  msgType : resp.msgType = msg.msgType ++ str "_resp"
  seq : resp.seq = msg.seq
  data : typed → FitsFields resp.data

theorem AnswerTo.assign (h : AnswerTo typed msg resp) (hfields : Assigns typed fields) :
    AnswerTo typed msg (resp.assign fields) :=
  ⟨h.clean.assign hfields.clean, h.msgType, h.seq,
    fun ht => .foldl_set (hfields.fits ht) (h.data ht)⟩

theorem AnswerTo.withRetry (h : AnswerTo typed msg resp) {n : Nat} (hn : typed → n < 2 ^ 64) :
    AnswerTo typed msg (withRetry resp n) := by
  unfold Handler.withRetry
  split_ifs
  · exact h.assign ⟨named ⟨trivial, hn⟩, trivial⟩
  · exact h

theorem answerTo_responseTo (hmsg : WellFormed msg.msgType) (code : ErrorCode)
    (h : WellFormed message) : AnswerTo typed msg (responseTo msg code message) :=
  ⟨responseTo_clean hmsg code h, rfl, rfl, fun _ => trivial⟩

theorem answerTo_response {msgType : String} (hname : msg.msgType ++ str "_resp" = str msgType)
    (code : ErrorCode) (h : WellFormed message) :
    AnswerTo typed msg (response msgType msg code message) :=
  ⟨response_clean msgType msg code h, hname.symm, rfl, fun _ => trivial⟩

/-- The bytes are an encoded response to the message, and a session to bind is UTF-8. -/
structure Correlated (typed : Prop) (msg : Message) (r : HandleResult) : Prop where
  response : ∃ resp, AnswerTo typed msg resp ∧ encodeResponse resp = .ok r.response
  session : SessionTexts r.pendingSession

/-- What a handler does. -/
abbrev Answers (typed : Prop) (msg : Message) (p : Action HandleResult) : Prop :=
  Keeps typed (Correlated typed msg) p

theorem encode_keeps (h : resp.Clean) :
    Keeps typed (fun body => encodeResponse resp = .ok body) (encode resp) :=
  .ofExcept ((encodeResponse_isOk resp).mpr h) fun _ => id

/-- Encoding a response and putting it into a result. -/
theorem encode_answers (h : AnswerTo typed msg resp) {f : Bytes → HandleResult}
    (hbody : ∀ body, (f body).response = body) (hf : ∀ body, SessionTexts (f body).pendingSession) :
    Answers typed msg (encode resp >>= fun body => pure (f body)) := by
  refine .bind (encode_keeps h.clean) fun body hencode => .pure ⟨⟨resp, h, ?_⟩, hf body⟩
  rw [hbody, hencode]

theorem reply_answers (h : AnswerTo typed msg resp) : Answers typed msg (reply resp) :=
  encode_answers h (fun _ => rfl) fun _ => sessionTexts_default

/-- A decoded message: its texts are UTF-8. -/
structure MessageClean (msg : Message) : Prop where
  msgType : WellFormed msg.msgType
  token : WellFormed msg.token
  data : msg.data.Clean

section

variable (hmsg : MessageClean msg)

include hmsg

theorem invalidParam_answers (err : String) :
    Answers typed msg (reply (makeInvalidParamResponse msg (str err))) :=
  reply_answers (answerTo_responseTo hmsg.msgType .invalidParam (str_wellFormed err))

/-! ## Accounts -/

theorem handleRegister_answers (w : Wiring) (identity : Bytes) :
    Answers typed msg (handleRegister w msg identity) := by
  unfold handleRegister
  split
  · exact invalidParam_answers hmsg _
  · refine .bind (registerUser_keeps w _ identity) fun result hresult => reply_answers ?_
    have hresp := (answerTo_responseTo hmsg.msgType result.code hresult.message).withRetry
      hresult.retryAfterSeconds
    split_ifs
    · exact hresp.assign ⟨numberField hresult.userId, trivial⟩
    · exact hresp

theorem handleLogin_answers (w : Wiring) (identity : Bytes) :
    Answers typed msg (handleLogin w msg identity) := by
  unfold handleLogin
  split
  · exact invalidParam_answers hmsg _
  · refine .bind (login_keeps w _ identity) fun result hresult => ?_
    have hresp := (answerTo_responseTo hmsg.msgType result.code hresult.message).withRetry
      hresult.retryAfterSeconds
    refine .ite (fun _ => reply_answers hresp) fun _ => ?_
    refine encode_answers (hresp.assign ?_) (fun _ => rfl) fun _ => hresult.session
    exact ⟨numberField hresult.userId, textField hresult.nickname, textField hresult.token, trivial⟩

theorem handleResumeSession_answers (w : Wiring) (htype : msg.msgType = str "resume_session") :
    Answers typed msg (handleResumeSession w msg) := by
  refine .bind (resumeSession_keeps w hmsg.token) fun resume hresume => ?_
  have hresp : AnswerTo typed msg (response "resume_session_resp" msg resume.code
      resume.message) := answerTo_response (by rw [htype]; rfl) _ hresume.message
  refine .ite (fun _ => reply_answers hresp) fun _ => ?_
  refine encode_answers (hresp.assign ?_) (fun _ => rfl) fun _ => hresume.session.texts
  exact ⟨numberField hresume.session.userId, textField hresume.session.texts.username, trivial⟩

theorem handleLogout_answers (conn : ConnId) : Answers typed msg (handleLogout msg conn) :=
  .bind (logout_keeps conn) fun _ hresult =>
    encode_answers (answerTo_responseTo hmsg.msgType _ hresult) (fun _ => rfl)
      fun _ => sessionTexts_default

theorem handleHeartbeat_answers : Answers typed msg (handleHeartbeat msg) :=
  .call fun _ hnow => reply_answers ((answerTo_responseTo hmsg.msgType _ (str_wellFormed _)).assign
    ⟨numberField hnow.2, trivial⟩)

theorem handleWhoAmI_answers (conn : ConnId) : Answers typed msg (handleWhoAmI msg conn) := by
  refine .bind (whoami_keeps conn) fun result hresult => reply_answers ?_
  have hresp : AnswerTo typed msg (responseTo msg result.code result.message) :=
    answerTo_responseTo hmsg.msgType _ hresult.message
  have htexts := hresult.session.texts
  split_ifs
  · exact hresp.assign ⟨numberField hresult.session.userId, textField htexts.username,
      textField htexts.token, trivial⟩
  · exact hresp

theorem handleUnknown_answers : Answers typed msg (handleUnknown msg) :=
  reply_answers (answerTo_responseTo hmsg.msgType _ ((str_wellFormed _).append hmsg.msgType))

/-! ## Chat -/

omit hmsg in
theorem messagePush_clean (msgType message : String) {result : SendMessageResult}
    (h : SendMessageResult.Sound typed result) : (messagePush msgType message result).Clean := by
  refine (push_clean msgType message).assign ?_
  exact ⟨named h.messageId, named h.conversationId, named trivial, named trivial,
    named h.fromUsername, named trivial, named h.content, named trivial, named trivial, trivial⟩

theorem handleSendMessage_answers (w : Wiring) (conn : ConnId)
    (htype : msg.msgType = str "send_message") :
    Answers typed msg (handleSendMessage w msg conn) := by
  unfold handleSendMessage
  split
  · exact invalidParam_answers hmsg _
  · refine .bind (sendMessage_keeps w conn _) fun result hresult => ?_
    have hname : AnswerTo typed msg (response "send_message_resp" msg result.code
        result.message) := answerTo_response (by rw [htype]; rfl) _ hresult.message
    have hack := hname.withRetry hresult.retryAfterSeconds
    refine .ite (fun _ => reply_answers hack) fun _ => ?_
    refine .bind (encode_keeps (messagePush_clean _ _ hresult)) fun payload _ => ?_
    have hsync : Keeps typed (fun _ => True) (syncPushes result) :=
      .exit trivial fun _ => .bind (encode_keeps (messagePush_clean _ _ hresult)) fun _ _ =>
        .pure trivial
    -- publishing to another server or not, the rest is the same
    have hrest : ∀ targets : List ConnId, Answers typed msg (do
        let sync ← syncPushes result
        let body ← encode (sendMessageAck (withRetry (response "send_message_resp" msg result.code
          result.message) result.retryAfterSeconds) result)
        pure { response := body
               pushes := targets.map (fun c => ⟨c, result.toUserId, payload, []⟩) ++ sync }) := by
      refine fun _ => .bind hsync fun _ _ => ?_
      refine encode_answers (hack.assign ?_) (fun _ => rfl) fun _ => sessionTexts_default
      exact ⟨textField hresult.messageId, textField hresult.conversationId,
        numberField hresult.sequence, numberField hresult.toUserId, numberField hresult.status,
        numberField hresult.createdAt, trivial⟩
    refine .ite (fun _ => ?_) fun _ => hrest _
    exact .bind (publishRemotePush_keeps w result payload) fun _ _ => hrest _

theorem handlePullOfflineMessages_answers (conn : ConnId)
    (htype : msg.msgType = str "pull_offline_messages") :
    Answers typed msg (handlePullOfflineMessages msg conn) := by
  unfold handlePullOfflineMessages
  split
  · exact invalidParam_answers hmsg _
  · refine .bind (pullOfflineMessages_keeps conn _) fun result hresult => reply_answers ?_
    have hresp : AnswerTo typed msg (response "pull_offline_messages_resp" msg result.code
        result.message) := answerTo_response (by rw [htype]; rfl) _ hresult.message
    split_ifs
    · refine hresp.assign ⟨arrayField fun v hv => ?_, named ⟨trivial, fun _ => trivial⟩, trivial⟩
      obtain ⟨records, hrecords, hsound⟩ := hresult.messages
      rw [hrecords] at hv
      obtain ⟨m, hm, rfl⟩ := List.mem_map.mp hv
      obtain ⟨record, hrecord, rfl⟩ := List.mem_map.mp hm
      obtain ⟨htexts, hints⟩ := hsound record hrecord
      exact writable_objectOf ⟨textField htexts.id, textField htexts.conversationId,
        numberField fun ht => (hints ht).sequence, numberField fun ht => (hints ht).fromUserId,
        numberField fun ht => (hints ht).toUserId, textField htexts.content,
        numberField fun ht => (hints ht).createdAt, numberField fun _ => isInt64_status _, trivial⟩
    · exact hresp

theorem handleStateUpdate_answers {msgType : String}
    {update : ConnId → List Bytes → Action MessageStateUpdateResult}
    (hupdate : ∀ conn {messageIds : List Bytes}, (∀ id ∈ messageIds, WellFormed id) →
      Keeps typed (MessageStateUpdateResult.Sound typed) (update conn messageIds)) (conn : ConnId)
    (hname : msg.msgType ++ str "_resp" = str msgType) :
    Answers typed msg (handleStateUpdate msgType update msg conn) := by
  unfold handleStateUpdate
  split
  · exact invalidParam_answers hmsg _
  next messageIds hparse =>
    have hids := parseMessageIds_parsed hmsg.data messageIds hparse
    refine .bind (hupdate conn hids) fun result hresult => reply_answers ?_
    have hresp : AnswerTo typed msg (response msgType msg result.code result.message) :=
      answerTo_response hname _ hresult.message
    split_ifs
    · refine hresp.assign ⟨arrayField fun v hv => ?_, numberField hresult.affectedRows, trivial⟩
      obtain ⟨id, hid, rfl⟩ := List.mem_map.mp hv
      exact ⟨hresult.messageIds id hid, fun _ => trivial⟩
    · exact hresp

/-! ## Friends -/

omit hmsg in
theorem parseUserField_isInt64 (key : String) (data : Json) :
    Parsed IsInt64 (parseUserField key data) :=
  (parsed_any _).bind fun i _ => parsed_return (isInt64_toInt64 i)

theorem handleFriendAction_answers {msgType : String} (key : String)
    {act : ConnId → UserId → Action FriendshipActionResult}
    (hact : ∀ conn {userId}, (typed → IsInt64 userId) →
      Keeps typed (FriendshipActionResult.Sound typed) (act conn userId))
    {fill : Response → FriendshipActionResult → Response}
    (hfill : ∀ {resp result}, AnswerTo typed msg resp → FriendshipActionResult.Sound typed result →
      AnswerTo typed msg (fill resp result)) (w : Wiring) (conn : ConnId)
    (hname : msg.msgType ++ str "_resp" = str msgType) :
    Answers typed msg (handleFriendAction msgType (parseUserField key) act fill w msg conn) := by
  refine .ite (fun _ => reply_answers (answerTo_response hname _ (str_wellFormed _))) fun _ => ?_
  split
  · exact invalidParam_answers hmsg _
  next userId hparse =>
    have huser := parseUserField_isInt64 key msg.data userId hparse
    refine .bind (hact conn fun _ => huser) fun result hresult => reply_answers ?_
    have hresp : AnswerTo typed msg (response msgType msg result.code result.message) :=
      answerTo_response hname _ hresult.message
    split_ifs
    · exact hfill hresp hresult
    · exact hresp

omit hmsg in
theorem friendshipStatus_wellFormed (s : Db.FriendshipStatus) : WellFormed s.toProtocol := by
  cases s
  all_goals exact str_wellFormed _

omit hmsg in
theorem fillAction_answerTo {result : FriendshipActionResult} (hresp : AnswerTo typed msg resp)
    (h : FriendshipActionResult.Sound typed result) :
    AnswerTo typed msg (fillAction resp result) := by
  unfold fillAction
  split
  next f hf =>
    obtain ⟨htexts, hints⟩ := h.friendship f hf
    have hbase : AnswerTo typed msg (resp.assign
        [(str "requester_id", .numberInteger f.requesterId),
          (str "addressee_id", .numberInteger f.addresseeId),
          (str "friend_user_id", .numberInteger result.friendUserId),
          (str "status", .string f.status.toProtocol)]) :=
      hresp.assign ⟨numberField fun ht => (hints ht).requesterId,
        numberField fun ht => (hints ht).addresseeId, numberField h.friendUserId,
        textField (friendshipStatus_wellFormed _), trivial⟩
    have htext : ∀ {resp : Response} {key : String} {s : Bytes}, WellFormed s →
        AnswerTo typed msg resp → AnswerTo typed msg (resp.assign [(str key, .string s)]) :=
      fun hs hresp => hresp.assign ⟨textField hs, trivial⟩
    unfold fillFriendshipActionResponse
    dsimp only
    split_ifs
    · exact hbase
    · exact htext htexts.createdAt hbase
    · exact htext htexts.updatedAt hbase
    · exact htext htexts.updatedAt (htext htexts.createdAt hbase)
  next => exact hresp

omit hmsg in
theorem fillDelete_answerTo {result : FriendshipActionResult} (hresp : AnswerTo typed msg resp)
    (h : FriendshipActionResult.Sound typed result) :
    AnswerTo typed msg (fillDeleteFriendResponse resp result.friendUserId result.deleted) :=
  hresp.assign ⟨numberField h.friendUserId, named ⟨trivial, fun _ => trivial⟩, trivial⟩

omit hmsg in
theorem handleListFriends_answers (w : Wiring) (conn : ConnId)
    (htype : msg.msgType = str "list_friends") :
    Answers typed msg (handleListFriends w msg conn) := by
  have hresp : ∀ code {message}, WellFormed message →
      AnswerTo typed msg (response "list_friends_resp" msg code message) :=
    fun code {_} => answerTo_response (by rw [htype]; rfl) code
  refine .ite (fun _ => reply_answers (hresp _ (str_wellFormed _))) fun _ => ?_
  refine .bind (listFriends_keeps conn) fun result hresult => reply_answers ?_
  split_ifs
  · refine (hresp _ hresult.message).assign ⟨arrayField fun v hv => ?_, trivial⟩
    obtain ⟨f, hf, rfl⟩ := List.mem_map.mp hv
    obtain ⟨htexts, huser⟩ := hresult.friends f hf
    exact writable_objectOf ⟨numberField huser, textField htexts.username,
      textField htexts.nickname, textField (friendshipStatus_wellFormed _),
      textField htexts.direction, textField htexts.createdAt, textField htexts.updatedAt, trivial⟩
  · exact hresp _ hresult.message

/-! ## Groups -/

omit hmsg in
theorem parseCreateGroupRequest_isInt64 (data : Json) :
    Parsed (fun req => ∀ member ∈ req.memberIds, IsInt64 member) (parseCreateGroupRequest data) :=
  (parsed_any _).bind fun _ _ => (parsed_any _).bind fun _ _ => parsed_return fun member hmember => by
    obtain ⟨i, -, rfl⟩ := List.mem_map.mp hmember
    exact isInt64_toInt64 i

theorem handleCreateGroup_answers (w : Wiring) (conn : ConnId)
    (htype : msg.msgType = str "create_group") :
    Answers typed msg (handleCreateGroup w msg conn) := by
  have hresp : ∀ code {message}, WellFormed message →
      AnswerTo typed msg (response "create_group_resp" msg code message) :=
    fun code {_} => answerTo_response (by rw [htype]; rfl) code
  refine .ite (fun _ => reply_answers (hresp _ (str_wellFormed _))) fun _ => ?_
  split
  · exact invalidParam_answers hmsg _
  next req hparse =>
    have hmembers := parseCreateGroupRequest_isInt64 msg.data req hparse
    refine .bind (createGroup_keeps conn fun _ => hmembers) fun result hresult => ?_
    split
    next group hgroup =>
      obtain ⟨htexts, howner⟩ := hresult.group group (Option.filter_eq_some_iff.mp hgroup).1
      refine reply_answers ((hresp _ hresult.message).assign ⟨textField htexts.id,
        textField htexts.name, numberField howner, textField htexts.conversationId,
        arrayField fun v hv => ?_, trivial⟩)
      obtain ⟨id, hid, rfl⟩ := List.mem_map.mp hv
      exact ⟨trivial, fun ht => hresult.memberIds ht id hid⟩
    next => exact reply_answers (hresp _ hresult.message)

theorem handleAddGroupMember_answers (w : Wiring) (conn : ConnId)
    (htype : msg.msgType = str "add_group_member") :
    Answers typed msg (handleAddGroupMember w msg conn) := by
  have hresp : ∀ code {message}, WellFormed message →
      AnswerTo typed msg (response "add_group_member_resp" msg code message) :=
    fun code {_} => answerTo_response (by rw [htype]; rfl) code
  refine .ite (fun _ => reply_answers (hresp _ (str_wellFormed _))) fun _ => ?_
  split
  · exact invalidParam_answers hmsg _
  · refine .bind (addGroupMember_keeps conn _) fun result hresult => ?_
    split
    next member hmember =>
      obtain ⟨htexts, huser⟩ := hresult.member member (Option.filter_eq_some_iff.mp hmember).1
      exact reply_answers ((hresp _ hresult.message).assign ⟨textField htexts.groupId,
        numberField huser, textField htexts.role, trivial⟩)
    next => exact reply_answers (hresp _ hresult.message)

omit hmsg in
theorem groupPushes_keeps {result : SendGroupMessageResult}
    (h : SendGroupMessageResult.Sound typed result) {deliveries : List GroupMessageDelivery}
    (hd : ∀ d ∈ deliveries, GroupMessageDelivery.Sound typed d) :
    Keeps typed (fun _ => True) (groupPushes result deliveries) := by
  induction deliveries with
  | nil => exact .pure trivial
  | cons d rest ih =>
    obtain ⟨hd, hrest⟩ := List.forall_mem_cons.mp hd
    have hpush : (groupMessagePush result d).Clean := by
      refine (push_clean "group_message_push" "new group message").assign ?_
      exact ⟨named hd.messageId, named hd.groupId, named hd.conversationId, named trivial,
        named trivial, named h.fromUsername, named trivial, named h.content, named trivial,
        named trivial, trivial⟩
    refine .ite (fun _ => ih hrest) fun _ => .bind (encode_keeps hpush) fun _ _ => ?_
    exact .bind (ih hrest) fun _ _ => .pure trivial

theorem handleSendGroupMessage_answers (w : Wiring) (conn : ConnId)
    (htype : msg.msgType = str "send_group_message") :
    Answers typed msg (handleSendGroupMessage w msg conn) := by
  have hresp : ∀ code {message}, WellFormed message →
      AnswerTo typed msg (response "send_group_message_resp" msg code message) :=
    fun code {_} => answerTo_response (by rw [htype]; rfl) code
  refine .ite (fun _ => reply_answers (hresp _ (str_wellFormed _))) fun _ => ?_
  split
  · exact invalidParam_answers hmsg _
  next req hparse =>
    obtain ⟨hid, hcontent⟩ := parseSendGroupMessageRequest_parsed hmsg.data req hparse
    refine .bind (sendGroupMessage_keeps w hid conn hcontent) fun result hresult => ?_
    refine .ite (fun _ => reply_answers (hresp _ hresult.message)) fun _ => ?_
    refine .bind (groupPushes_keeps hresult hresult.messages) fun pushes _ => ?_
    refine encode_answers ((hresp _ hresult.message).assign ?_) (fun _ => rfl)
      fun _ => sessionTexts_default
    refine ⟨textField hresult.groupId, textField hresult.conversationId,
      arrayField fun v hv => ?_, trivial⟩
    obtain ⟨d, hd, rfl⟩ := List.mem_map.mp hv
    have hd := hresult.messages d hd
    exact writable_objectOf ⟨textField hd.messageId, textField hd.groupId,
      textField hd.conversationId, numberField hd.sequence, numberField hd.toUserId,
      numberField hd.status, numberField hd.createdAt, trivial⟩

/-! ## Routing -/

theorem dispatch_answers (w : Wiring) (conn : ConnId) (peerIp : Bytes) :
    Answers typed msg (dispatch w msg conn peerIp) := by
  unfold dispatch
  refine .ite (fun _ => handleRegister_answers hmsg w peerIp) fun _ => ?_
  refine .ite (fun _ => handleLogin_answers hmsg w peerIp) fun _ => ?_
  refine .ite (fun _ => handleLogout_answers hmsg conn) fun _ => ?_
  refine .ite (fun _ => handleHeartbeat_answers hmsg) fun _ => ?_
  refine .ite (fun _ => handleWhoAmI_answers hmsg conn) fun _ => ?_
  refine .ite (handleSendMessage_answers hmsg w conn) fun _ => ?_
  refine .ite (handlePullOfflineMessages_answers hmsg conn) fun _ => ?_
  refine .ite (fun htype => handleStateUpdate_answers hmsg
    (updateState_keeps .markDelivered (fun _ _ _ h => h) _) conn (by rw [htype]; rfl)) fun _ => ?_
  refine .ite (fun htype => handleStateUpdate_answers hmsg
    (updateState_keeps .markRead (fun _ _ _ h => h) _) conn (by rw [htype]; rfl)) fun _ => ?_
  refine .ite (fun htype => handleFriendAction_answers hmsg _ addFriend_keeps fillAction_answerTo w
    conn (by rw [htype]; rfl)) fun _ => ?_
  refine .ite (fun htype => handleFriendAction_answers hmsg _ acceptFriend_keeps
    fillAction_answerTo w conn (by rw [htype]; rfl)) fun _ => ?_
  refine .ite (fun htype => handleFriendAction_answers hmsg _ deleteFriend_keeps
    fillDelete_answerTo w conn (by rw [htype]; rfl)) fun _ => ?_
  refine .ite (handleListFriends_answers w conn) fun _ => ?_
  refine .ite (handleCreateGroup_answers hmsg w conn) fun _ => ?_
  refine .ite (handleAddGroupMember_answers hmsg w conn) fun _ => ?_
  exact .ite (handleSendGroupMessage_answers hmsg w conn) fun _ => handleUnknown_answers hmsg

theorem handleMessage_answers (w : Wiring) (conn : ConnId) (peerIp : Bytes) :
    Answers typed msg (handleMessage w msg conn peerIp) := by
  refine .ite (handleResumeSession_answers hmsg w) fun _ => ?_
  have hrefused : Keeps typed (fun _ => True) (tokenRefused w msg conn) :=
    .exit trivial fun _ =>
      .bind (requestTokenMatches_keeps w conn msg.token) fun _ _ => .pure trivial
  refine .bind hrefused fun refused _ => .ite (fun _ => ?_) fun _ => ?_
  · exact reply_answers (answerTo_responseTo hmsg.msgType _ (str_wellFormed _))
  · exact .bind (refreshPresence_keeps w conn) fun _ _ => dispatch_answers hmsg w conn peerIp

end

end ChatServer.Handler
