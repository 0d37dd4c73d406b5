import ChatServer.Handler.Returns
import ChatServer.Service.PullLimit

/-!
# The packet of a pull

The response to `pull_offline_messages` is one line of JSON. The limits on a
page (100 messages), on a content (4096 bytes) and on a packet (65536 bytes) are
set apart from each other; `pageBytes` is how long the line is, in terms of the
stored rows.

* `handlePullOfflineMessages_sends` — the response to an accepted request;
* `pull_packet_received_iff` — a peer that frames packets with `PacketCodec`
  receives it exactly when the first rows that wait are short enough.
-/

namespace ChatServer.Handler

open Base Json Codec Service Net Db

/-! ## Lengths -/

/-- The characters of a row in the response. -/
def rowBytes (m : MessageRecord) : Nat :=
  118 + escapedLength m.content + escapedLength m.conversationId + escapedLength m.id +
    (intText m.createdAt).length + (intText m.fromUserId).length + (intText m.sequence).length +
    (intText m.toUserId).length

/-- The characters of the response to a pull. -/
def pageBytes (seq : Nat) (hasMore : Bool) (rows : List MessageRecord) : Nat :=
  112 + (natText seq).length + (if hasMore then 4 else 5) + (rows.map rowBytes).sum +
    (rows.length - 1)

/-- The response to an accepted request. -/
def pullResponse (seq : Nat) (hasMore : Bool) (rows : List MessageRecord) : Response :=
  fillPullOfflineMessagesResponse
    { msgType := str "pull_offline_messages_resp", seq, message := str "Success" }
    (rows.map ChatService.offlineMessage) hasMore

/-- `std::map` writes the fields in alphabetical order. -/
theorem toJson_offlineMessage (m : OfflineMessage) :
    m.toJson = .object
      [(str "content", .string m.content), (str "conversation_id", .string m.conversationId),
        (str "created_at", .numberInteger m.createdAt),
        (str "from_user_id", .numberInteger m.fromUserId), (str "message_id", .string m.messageId),
        (str "sequence", .numberInteger m.sequence), (str "status", .numberInteger m.status),
        (str "to_user_id", .numberInteger m.toUserId)] := rfl

theorem length_text_integer (i : Int) : (text (.numberInteger i)).length = (intText i).length := rfl

theorem length_text_row (m : MessageRecord) :
    (text (ChatService.offlineMessage m).toJson).length = rowBytes m := by
  have hstatus : (intText m.status.toProtocol).length = 1 := by cases m.status <;> rfl
  have hkeys : escapedLength (str "content") = 7 ∧ escapedLength (str "conversation_id") = 15 ∧
      escapedLength (str "created_at") = 10 ∧ escapedLength (str "from_user_id") = 12 ∧
      escapedLength (str "message_id") = 10 ∧ escapedLength (str "sequence") = 8 ∧
      escapedLength (str "status") = 6 ∧ escapedLength (str "to_user_id") = 10 := by decide
  rw [toJson_offlineMessage, length_text_object]
  simp only [length_textFields_cons, length_text_string, length_text_integer, hkeys,
    ChatService.offlineMessage, hstatus, List.isEmpty_cons, List.isEmpty_nil, if_true,
    Bool.false_eq_true, if_false, length_textFields_nil]
  unfold rowBytes
  omega

theorem toJson_pullResponse (seq : Nat) (hasMore : Bool) (rows : List MessageRecord) :
    (pullResponse seq hasMore rows).toJson = .object
      [(str "code", .numberInteger 0),
        (str "data", .object [(str "has_more", .boolean hasMore),
          (str "messages", .array ((rows.map ChatService.offlineMessage).map
            OfflineMessage.toJson))]),
        (str "message", .string (str "Success")),
        (str "msg_type", .string (str "pull_offline_messages_resp")),
        (str "seq", .numberUnsigned seq)] := rfl

/-- How long the response is. -/
theorem length_text_pullResponse (seq : Nat) (hasMore : Bool) (rows : List MessageRecord) :
    (text (pullResponse seq hasMore rows).toJson).length = pageBytes seq hasMore rows := by
  have hkeys : escapedLength (str "code") = 4 ∧ escapedLength (str "data") = 4 ∧
      escapedLength (str "message") = 7 ∧ escapedLength (str "msg_type") = 8 ∧
      escapedLength (str "seq") = 3 ∧ escapedLength (str "has_more") = 8 ∧
      escapedLength (str "messages") = 8 ∧ escapedLength (str "Success") = 7 ∧
      escapedLength (str "pull_offline_messages_resp") = 26 := by decide
  have hrows : (((rows.map ChatService.offlineMessage).map OfflineMessage.toJson).map
      fun v => (text v).length) = rows.map rowBytes := by
    rw [List.map_map, List.map_map]
    exact List.map_congr_left fun m _ => length_text_row m
  have hmore : (text (.boolean hasMore)).length = if hasMore then 4 else 5 := by
    cases hasMore <;> rfl
  have hcode : (text (.numberInteger 0)).length = 1 := rfl
  have hseq : (text (.numberUnsigned seq)).length = (natText seq).length := rfl
  rw [toJson_pullResponse, length_text_object]
  simp only [length_textFields_cons, length_text_object, length_text_array, length_textItems, hrows,
    length_text_string, hkeys, hmore, hcode, hseq, List.length_map, List.isEmpty_cons,
    List.isEmpty_nil, if_true, Bool.false_eq_true, if_false, length_textFields_nil]
  unfold pageBytes
  omega

theorem oneLine_pullResponse (seq : Nat) (hasMore : Bool) (rows : List MessageRecord) :
    OneLine (pullResponse seq hasMore rows).toJson := by
  have hrow : ∀ m : OfflineMessage, OneLine m.toJson := by
    intro m
    rw [toJson_offlineMessage]
    apply oneLine_object
    simp only [List.forall_mem_cons, oneLine_string, oneLine_integer, true_and]
    exact nofun
  rw [toJson_pullResponse]
  apply oneLine_object
  simp only [List.forall_mem_cons, oneLine_string, oneLine_integer, oneLine_unsigned, true_and]
  refine ⟨oneLine_object ?_, nofun⟩
  simp only [List.forall_mem_cons, oneLine_boolean, true_and]
  refine ⟨oneLine_array fun v hv => ?_, nofun⟩
  obtain ⟨m, -, rfl⟩ := List.mem_map.mp hv
  exact hrow m

/-! ## The response -/

theorem pullResponse_clean (seq : Nat) (hasMore : Bool) {rows : List MessageRecord}
    (h : ∀ m ∈ rows, MessageRecord.Texts m) : (pullResponse seq hasMore rows).Clean := by
  have hbase : ({ msgType := str "pull_offline_messages_resp", seq, message := str "Success" } :
      Response).Clean := ⟨str_wellFormed _, str_wellFormed _, trivial⟩
  refine hbase.assign ⟨named (cleanItems_iff.mpr fun v hv => ?_), named trivial, trivial⟩
  obtain ⟨o, ho, rfl⟩ := List.mem_map.mp hv
  obtain ⟨m, hm, rfl⟩ := List.mem_map.mp ho
  have htexts := h m hm
  rw [toJson_offlineMessage]
  exact ⟨named htexts.content, named htexts.conversationId, named trivial, named trivial,
    named htexts.id, named trivial, named trivial, named trivial, trivial⟩

variable {coll : Collation} {t : Tables} {session : ConnectionSession}
  {req : PullOfflineMessagesRequest}

theorem handlePullOfflineMessages_sends (htexts : ∀ m ∈ t.messages, MessageRecord.Texts m)
    (hauth : session.authenticated = true) (conn : ConnId) {msg : Message}
    (hparse : parsePullOfflineMessagesRequest msg.data = .ok req)
    (haccepted : (pullOffline coll t session req).code = .ok) {rows : List MessageRecord}
    (hrows : remainingRows coll t session.userId req.sinceMessageId = rows) :
    (handlePullOfflineMessages msg conn).Returns (ReadsFrom coll t session) fun r =>
      r.response = text (pullResponse msg.seq (req.limit.toNat < rows.length)
        (rows.take req.limit.toNat)).toJson := by
  have hclean : (pullResponse msg.seq (req.limit.toNat < rows.length)
      (rows.take req.limit.toNat)).Clean := by
    refine pullResponse_clean _ _ fun m hm => htexts m ?_
    rw [← hrows] at hm
    exact (mem_inbox.mp (mem_remainingRows (List.mem_of_mem_take hm))).1
  have hreply : (reply (pullResponse msg.seq (req.limit.toNat < rows.length)
      (rows.take req.limit.toNat))).Returns (ReadsFrom coll t session) fun r =>
      r.response = text (pullResponse msg.seq (req.limit.toNat < rows.length)
        (rows.take req.limit.toNat)).toJson := by
    unfold reply encode
    rw [encodeResponse_eq_text hclean]
    exact Prog.Returns.pure rfl
  unfold handlePullOfflineMessages
  rw [hparse]
  refine .bind (pullOfflineMessages_returns coll t hauth conn req) fun result hresult => ?_
  rw [hresult, pullOffline_eq haccepted, hrows]
  exact hreply

/-- A peer receives the response to an accepted pull exactly when the first rows that
wait after the cursor, up to the limit, fit a packet. -/
theorem pull_packet_received_iff (coll : Collation) {t : Tables}
    (htexts : ∀ m ∈ t.messages, MessageRecord.Texts m) {session : ConnectionSession}
    (hauth : session.authenticated = true) (conn : ConnId) {msg : Message}
    {req : PullOfflineMessagesRequest} (hparse : parsePullOfflineMessagesRequest msg.data = .ok req)
    (haccepted : (pullOffline coll t session req).code = .ok) {rows : List MessageRecord}
    (hrows : remainingRows coll t session.userId req.sinceMessageId = rows) :
    (handlePullOfflineMessages msg conn).Returns (ReadsFrom coll t session) fun r =>
      ((({} : PacketCodec).feed (Codec.encode r.response)).ok = true ↔
        pageBytes msg.seq (req.limit.toNat < rows.length) (rows.take req.limit.toNat) ≤
          kMaxPacketSize) := by
  refine (handlePullOfflineMessages_sends htexts hauth conn hparse haccepted hrows).mono ?_
  intro r hr
  rw [feed_encode_iff (hr ▸ oneLine_pullResponse _ _ _), hr, length_text_pullResponse]

/-- A pull with the given limit. -/
def pullMessage (limit : Nat) : Message where
  msgType := str "pull_offline_messages"
  seq := 7
  data := .object [(str "limit", .numberUnsigned limit)]

/-- Two of three messages that wait. -/
theorem pull_packet_received_two :
    (pullOffline id threeForBob.tables bob ⟨2, [], []⟩).messages.length = 2 ∧
    (handlePullOfflineMessages (pullMessage 2) 1).Returns (ReadsFrom id threeForBob.tables bob)
      fun r => (({} : PacketCodec).feed (Codec.encode r.response)).ok = true := by
  have hparse : parsePullOfflineMessagesRequest (pullMessage 2).data = .ok ⟨2, [], []⟩ := rfl
  have hauth : bob.authenticated = true := rfl
  have htexts : ∀ m ∈ threeForBob.tables.messages, MessageRecord.Texts m := by
    have hascii : ∀ m ∈ threeForBob.tables.messages,
        Utf8.Ascii m.id ∧ Utf8.Ascii m.conversationId ∧ Utf8.Ascii m.content := by
      decide +kernel
    intro m hm
    obtain ⟨hid, hconversation, hcontent⟩ := hascii m hm
    exact ⟨Utf8.wellFormed_of_ascii hid, Utf8.wellFormed_of_ascii hconversation,
      Utf8.wellFormed_of_ascii hcontent⟩
  have haccepted : (pullOffline id threeForBob.tables bob ⟨2, [], []⟩).code = .ok := by
    decide +kernel
  refine ⟨by decide +kernel, ?_⟩
  refine (pull_packet_received_iff id htexts hauth 1 hparse haccepted rfl).mono
    fun r hiff => hiff.mpr ?_
  decide +kernel

/-- A message of the longest content that is accepted, from user 1 to user 2. -/
def longRow (i : Nat) : MessageRecord where
  id := str "msg_" ++ hexPad 2 i
  conversationId := str "conv_1_2"
  clientMsgId := hexPad 2 i
  sequence := i + 1
  fromUserId := 1
  toUserId := 2
  content := List.replicate 4096 0x61
  createdAt := 100

def longInbox : Tables where
  messages := (List.range 17).map longRow

theorem longRow_valid (i : Nat) :
    Validator.messageContent (longRow i).content = none ∧ MessageRecord.Texts (longRow i) := by
  have hletter : ∀ b ∈ (longRow i).content, b = 0x61 := fun b hb => List.eq_of_mem_replicate hb
  have hlength : (longRow i).content.length = 4096 := List.length_replicate
  constructor
  · have hnul : Validator.hasNul (longRow i).content = false := by
      rw [Validator.hasNul, List.contains_eq_mem, decide_eq_false_iff_not]
      exact fun hmem => absurd (hletter 0 hmem) (by decide)
    have hempty : (longRow i).content.isEmpty = false := by
      rw [List.isEmpty_eq_false_iff, ← List.length_pos_iff, hlength]
      decide
    rw [Validator.messageContent, hempty, hlength, hnul]
    rfl
  · refine ⟨(str_wellFormed _).append (Utf8.wellFormed_of_ascii (hexPad_ascii 2 i)),
      str_wellFormed _, Utf8.wellFormed_of_ascii fun b hb => ?_⟩
    rw [hletter b hb]
    decide

/-- Rows of long contents make a long page. -/
theorem length_mul_le_pageBytes {n : Nat} {rows : List MessageRecord}
    (h : ∀ m ∈ rows, n ≤ m.content.length) (seq : Nat) (hasMore : Bool) :
    rows.length * n ≤ pageBytes seq hasMore rows := by
  have hsum : rows.length * n ≤ (rows.map rowBytes).sum := by
    induction rows with
    | nil => simp
    | cons m rows ih =>
      obtain ⟨hm, hrows⟩ := List.forall_mem_cons.mp h
      have hcontent := length_le_escapedLength m.content
      have hrow : n ≤ rowBytes m := by
        unfold rowBytes
        omega
      rw [List.map_cons, List.sum_cons, List.length_cons, Nat.succ_mul]
      have := ih hrows
      omega
  unfold pageBytes
  omega

/-- The whole inbox, up to the largest limit. -/
def pullAll : PullOfflineMessagesRequest := ⟨100, [], []⟩

theorem longInbox_accepted : (pullOffline id longInbox bob pullAll).code = .ok := by
  refine pullOffline_ok_iff.mpr ⟨rfl, by decide, rfl, fun m hm => ?_⟩
  obtain ⟨hm, -, -⟩ := mem_inbox.mp (mem_remainingRows (List.mem_of_mem_take hm))
  obtain ⟨i, -, rfl⟩ := List.mem_map.mp hm
  have hid : (longRow i).id.length = 6 := by
    show (str "msg_" ++ hexPad 2 i).length = 6
    rw [List.length_append, hexPad_length]
    rfl
  have hclient : (longRow i).clientMsgId.length = 2 := hexPad_length 2 i
  have hcontent : (longRow i).content.length = 4096 := List.length_replicate
  have hconversation : (longRow i).conversationId.length = 8 := rfl
  exact fits_messageColumns.mpr ⟨by omega, by omega, by omega, by omega⟩

/-- Seventeen messages of the longest content do not fit a packet. -/
theorem pull_packet_too_long :
    (∀ m ∈ longInbox.messages,
      Validator.messageContent m.content = none ∧ MessageRecord.Texts m) ∧
    (pullOffline id longInbox bob pullAll).code = .ok ∧
    (handlePullOfflineMessages (pullMessage 100) 1).Returns (ReadsFrom id longInbox bob)
      fun r => (({} : PacketCodec).feed (Codec.encode r.response)).ok = false := by
  have hvalid : ∀ m ∈ longInbox.messages,
      Validator.messageContent m.content = none ∧ MessageRecord.Texts m := by
    intro m hm
    obtain ⟨i, -, rfl⟩ := List.mem_map.mp hm
    exact longRow_valid i
  have hparse : parsePullOfflineMessagesRequest (pullMessage 100).data = .ok pullAll := rfl
  have hauth : bob.authenticated = true := rfl
  refine ⟨hvalid, longInbox_accepted, ?_⟩
  refine (handlePullOfflineMessages_sends (fun m hm => (hvalid m hm).2) hauth 1 hparse
    longInbox_accepted rfl).mono fun r hr => ?_
  have hinbox : (longInbox.inbox 2).length = 17 := by decide
  have hrows : (remainingRows id longInbox 2 []).length = 17 :=
    Keyset.length_remaining_none.trans hinbox
  have hpage : (remainingRows id longInbox 2 []).take 100 = remainingRows id longInbox 2 [] :=
    List.take_of_length_le (by omega)
  have hcontents : ∀ m ∈ remainingRows id longInbox 2 [], 4096 ≤ m.content.length := by
    intro m hm
    obtain ⟨i, -, rfl⟩ := List.mem_map.mp (mem_inbox.mp (mem_remainingRows hm)).1
    exact Nat.le_of_eq List.length_replicate.symm
  have hlong := length_mul_le_pageBytes hcontents (pullMessage 100).seq
    (100 < (remainingRows id longInbox 2 []).length)
  rw [hrows] at hlong
  rw [← Bool.not_eq_true, feed_encode_iff (hr ▸ oneLine_pullResponse _ _ _), hr,
    length_text_pullResponse]
  intro hfits
  have hfits : pageBytes (pullMessage 100).seq (100 < (remainingRows id longInbox 2 []).length)
      (remainingRows id longInbox 2 []) ≤ kMaxPacketSize := hpage ▸ hfits
  rw [hrows] at hfits
  exact absurd (Nat.le_trans hlong hfits) (by decide)

end ChatServer.Handler
