import ChatServer.Service.GroupService

/-!
# What the services make of the answers they get

`Utf8Answers` says that the repositories, the session manager and the session
store answer with well-formed UTF-8. `IntegerAnswers` says that the ids, sequences,
timestamps and counts they answer with, `int64_t` or smaller in the source, are
values of these types. Under the first every function of the services returns, and
the texts of its result are well formed; under both its integers are values of their
types as well. What is not a literal of the service comes from an answer or from the
request.

* `SoundAnswers typed` — the first and, if `typed`, the second;
* `Keeps typed Q` — what a function does under it; there is one such rule for each
  function, with the condition `Sound typed` on its result.
-/

namespace ChatServer.Service

open Base Db Redis Codec Utf8

/-! ## Answers -/

structure UserRecord.Texts (u : UserRecord) : Prop where
  username : WellFormed u.username
  nickname : WellFormed u.nickname

structure MessageRecord.Texts (m : MessageRecord) : Prop where
  id : WellFormed m.id
  conversationId : WellFormed m.conversationId
  content : WellFormed m.content

structure FriendshipRecord.Texts (f : FriendshipRecord) : Prop where
  createdAt : WellFormed f.createdAt
  updatedAt : WellFormed f.updatedAt

structure FriendshipListItem.Texts (f : FriendshipListItem) : Prop where
  username : WellFormed f.username
  nickname : WellFormed f.nickname
  direction : WellFormed f.direction
  createdAt : WellFormed f.createdAt
  updatedAt : WellFormed f.updatedAt

structure GroupRecord.Texts (g : GroupRecord) : Prop where
  id : WellFormed g.id
  name : WellFormed g.name
  conversationId : WellFormed g.conversationId

structure GroupMemberRecord.Texts (m : GroupMemberRecord) : Prop where
  groupId : WellFormed m.groupId
  role : WellFormed m.role

structure SessionTexts (s : ConnectionSession) : Prop where
  username : WellFormed s.username
  token : WellFormed s.token

/-- The answer is well-formed UTF-8, as far as a response can come to contain
it. -/
def Utf8Answers : ∀ γ, Call γ → γ → Prop
  | _, .findByUsername _, r => ∀ u ∈ r.user, UserRecord.Texts u
  | _, .createMessage _, r => ∀ m created, r = .ok m created → MessageRecord.Texts m
  | _, .findMessageByClientMsgId _ _, r => ∀ m ∈ r.message, MessageRecord.Texts m
  | _, .listOfflineMessages _ _ _, r => ∀ m ∈ r.messages, MessageRecord.Texts m
  | _, .createFriendRequest _ _, r => ∀ f ∈ r.friendship, FriendshipRecord.Texts f
  | _, .acceptFriendRequest _ _, r => ∀ f ∈ r.friendship, FriendshipRecord.Texts f
  | _, .listFriendships _, r => ∀ f ∈ r.friends, FriendshipListItem.Texts f
  | _, .createGroup _ _, r => ∀ g ∈ r.group, GroupRecord.Texts g
  | _, .findGroup _, r => ∀ g ∈ r.group, GroupRecord.Texts g
  | _, .addMember _, r => ∀ m ∈ r.member, GroupMemberRecord.Texts m
  | _, .getSession _, r => ∀ s ∈ r, SessionTexts s
  | _, .getToken _, r => ∀ s ∈ r, WellFormed s.username
  | _, _, _ => True

structure MessageRecord.Integers (m : MessageRecord) : Prop where
  sequence : IsInt64 m.sequence
  fromUserId : IsInt64 m.fromUserId
  toUserId : IsInt64 m.toUserId
  createdAt : IsInt64 m.createdAt

structure FriendshipRecord.Integers (f : FriendshipRecord) : Prop where
  requesterId : IsInt64 f.requesterId
  addresseeId : IsInt64 f.addresseeId

/-- The integers of the answer are values of their types, as far as a response
can come to contain them. -/
def IntegerAnswers : ∀ γ, Call γ → γ → Prop
  | _, .findByUsername _, r => ∀ u ∈ r.user, IsInt64 u.id
  | _, .createUser _ _ _, r => IsInt64 r.userId
  | _, .createMessage _, r => ∀ m created, r = .ok m created → MessageRecord.Integers m
  | _, .findMessageByClientMsgId _ _, r => ∀ m ∈ r.message, MessageRecord.Integers m
  | _, .listOfflineMessages _ _ _, r => ∀ m ∈ r.messages, MessageRecord.Integers m
  | _, .markDelivered _ _, r => IsInt64 r.affectedRows
  | _, .markRead _ _, r => IsInt64 r.affectedRows
  | _, .createFriendRequest _ _, r => ∀ f ∈ r.friendship, FriendshipRecord.Integers f
  | _, .acceptFriendRequest _ _, r => ∀ f ∈ r.friendship, FriendshipRecord.Integers f
  | _, .listFriendships _, r => ∀ f ∈ r.friends, IsInt64 f.userId
  | _, .createGroup _ _, r => ∀ g ∈ r.group, IsInt64 g.ownerId
  | _, .addMember _, r => ∀ m ∈ r.member, IsInt64 m.userId
  | _, .getSession _, r => ∀ s ∈ r, IsInt64 s.userId
  | _, .getToken _, r => ∀ s ∈ r, IsInt64 s.userId
  | _, .allow _ _ _ _, r => r.retryAfterSeconds < 2 ^ 64
  | _, .now, r => IsInt64 r
  | _, _, _ => True

/-- The texts of the answer are UTF-8 and, if `typed`, its integers are values of their
types. -/
def SoundAnswers (typed : Prop) (γ : Type) (op : Call γ) (r : γ) : Prop :=
  Utf8Answers γ op r ∧ (typed → IntegerAnswers γ op r)

/-- What every function of the services does under such answers. -/
abbrev Keeps (typed : Prop) {α : Type} (Q : α → Prop) (p : Action α) : Prop :=
  p.Returns (SoundAnswers typed) Q

/-! ## Results -/

section

variable (typed : Prop)

structure RegisterResult.Sound (r : RegisterResult) : Prop where
  message : WellFormed r.message
  userId : typed → IsInt64 r.userId
  retryAfterSeconds : typed → r.retryAfterSeconds < 2 ^ 64

structure ConnectionSession.Sound (s : ConnectionSession) : Prop where
  texts : SessionTexts s
  userId : typed → IsInt64 s.userId

structure LoginResult.Sound (r : LoginResult) : Prop where
  message : WellFormed r.message
  nickname : WellFormed r.nickname
  token : WellFormed r.token
  session : SessionTexts r.session
  userId : typed → IsInt64 r.userId
  retryAfterSeconds : typed → r.retryAfterSeconds < 2 ^ 64

structure SessionResult.Sound (r : SessionResult) : Prop where
  message : WellFormed r.message
  session : ConnectionSession.Sound typed r.session

structure MessageRecord.Sound (m : MessageRecord) : Prop where
  texts : MessageRecord.Texts m
  integers : typed → MessageRecord.Integers m

structure SendMessageResult.Sound (r : SendMessageResult) : Prop where
  message : WellFormed r.message
  fromUsername : WellFormed r.fromUsername
  content : WellFormed r.content
  messageId : WellFormed r.messageId
  conversationId : WellFormed r.conversationId
  sequence : typed → IsInt64 r.sequence
  toUserId : typed → IsInt64 r.toUserId
  status : typed → IsInt64 r.status
  createdAt : typed → IsInt64 r.createdAt
  retryAfterSeconds : typed → r.retryAfterSeconds < 2 ^ 64

structure PullOfflineMessagesResult.Sound (r : PullOfflineMessagesResult) : Prop where
  message : WellFormed r.message
  messages : ∃ records : List MessageRecord, r.messages = records.map ChatService.offlineMessage ∧
    ∀ m ∈ records, MessageRecord.Sound typed m

structure MessageStateUpdateResult.Sound (r : MessageStateUpdateResult) : Prop where
  message : WellFormed r.message
  messageIds : ∀ id ∈ r.messageIds, WellFormed id
  affectedRows : typed → IsInt64 r.affectedRows

structure FriendshipActionResult.Sound (r : FriendshipActionResult) : Prop where
  message : WellFormed r.message
  friendship : ∀ f ∈ r.friendship,
    FriendshipRecord.Texts f ∧ (typed → FriendshipRecord.Integers f)
  friendUserId : typed → IsInt64 r.friendUserId

structure ListFriendsResult.Sound (r : ListFriendsResult) : Prop where
  message : WellFormed r.message
  friends : ∀ f ∈ r.friends, FriendshipListItem.Texts f ∧ (typed → IsInt64 f.userId)

structure CreateGroupResult.Sound (r : CreateGroupResult) : Prop where
  message : WellFormed r.message
  group : ∀ g ∈ r.group, GroupRecord.Texts g ∧ (typed → IsInt64 g.ownerId)
  memberIds : typed → ∀ member ∈ r.memberIds, IsInt64 member

structure AddGroupMemberResult.Sound (r : AddGroupMemberResult) : Prop where
  message : WellFormed r.message
  member : ∀ m ∈ r.member, GroupMemberRecord.Texts m ∧ (typed → IsInt64 m.userId)

structure GroupMessageDelivery.Sound (d : GroupMessageDelivery) : Prop where
  messageId : WellFormed d.messageId
  groupId : WellFormed d.groupId
  conversationId : WellFormed d.conversationId
  sequence : typed → IsInt64 d.sequence
  toUserId : typed → IsInt64 d.toUserId
  status : typed → IsInt64 d.status
  createdAt : typed → IsInt64 d.createdAt

structure SendGroupMessageResult.Sound (r : SendGroupMessageResult) : Prop where
  message : WellFormed r.message
  groupId : WellFormed r.groupId
  conversationId : WellFormed r.conversationId
  fromUsername : WellFormed r.fromUsername
  content : WellFormed r.content
  messages : ∀ d ∈ r.messages, GroupMessageDelivery.Sound typed d

end

variable {typed : Prop}

theorem sessionTexts_default : SessionTexts {} := ⟨wellFormed_nil, wellFormed_nil⟩

theorem isInt64_status (status : MessageStatus) : IsInt64 status.toProtocol := by
  cases status <;> constructor <;> simp [MessageStatus.toProtocol]

theorem getAuthenticatedSession_keeps (conn : ConnId) :
    Keeps typed (fun s => ∀ t ∈ s, ConnectionSession.Sound typed t)
      (getAuthenticatedSession conn) := by
  refine .call fun r hr => .pure fun s hs => ?_
  have hs := (Option.filter_eq_some_iff.mp hs).1
  exact ⟨hr.1 s hs, fun ht => hr.2 ht s hs⟩

/-! ## Accounts -/

theorem firstFailure_literal {checks : List (Option String)} {err : Bytes}
    (h : Account.firstFailure checks = some err) : ∃ text, err = str text := by
  obtain ⟨text, -, rfl⟩ := Option.map_eq_some_iff.mp h
  exact ⟨text, rfl⟩

theorem overLimit_keeps (w : Wiring) (type identity : Bytes) (limit windowSeconds : Nat) :
    Keeps typed (fun retry => ∀ n ∈ retry, typed → n < 2 ^ 64)
      (Account.overLimit w type identity limit windowSeconds) := by
  refine .exit (fun _ hm => nomatch hm) fun _ => .call fun result hresult => .pure fun n hn => ?_
  split at hn
  · cases hn
  · obtain rfl := Option.some.inj hn
    exact hresult.2

theorem registerUser_keeps (w : Wiring) (req : RegisterRequest) (identity : Bytes) :
    Keeps typed (RegisterResult.Sound typed) (Account.registerUser w req identity) := by
  have refused : ∀ code text, RegisterResult.Sound typed { code, message := str text } :=
    fun _ _ => ⟨str_wellFormed _, fun _ => isInt64_zero, fun _ => Nat.two_pow_pos 64⟩
  unfold Account.registerUser
  split
  next err herr =>
    obtain ⟨text, rfl⟩ := firstFailure_literal herr
    exact .pure (refused _ _)
  refine .bind (overLimit_keeps _ _ _ _ _) fun limited hlimited => ?_
  split
  next retry => exact .pure ⟨str_wellFormed _, fun _ => isInt64_zero, hlimited retry rfl⟩
  refine .call fun found _ => .exit (refused _ _) fun _ => ?_
  refine .exit (refused _ _) fun _ => ?_
  refine .exit (refused _ _) fun _ => .call fun hash _ => ?_
  split
  · refine .call fun created hcreated => .exit (refused _ _) fun _ => ?_
    refine .exit (refused _ _) fun _ => .exit (refused _ _) fun _ => ?_
    -- only the id of the new user comes from an answer
    exact .pure ⟨str_wellFormed _, hcreated.2, fun _ => Nat.two_pow_pos 64⟩
  · exact .pure (refused _ _)

theorem hexPad_ascii (width n : Nat) : Ascii (hexPad width n) := by
  induction width generalizing n with
  | zero => exact ascii_nil
  | succ width ih =>
    have hdigit : ∀ d : Fin 16, Ascii [hexChar d.val] := by decide +kernel
    rw [hexPad, ascii_append_iff]
    exact ⟨ih _, hdigit ⟨n % 16, Nat.mod_lt _ (by omega)⟩⟩

theorem randomHex_keeps (count : Nat) : Keeps typed WellFormed (Account.randomHex count) := by
  refine .call fun bytes _ => .pure (wellFormed_of_ascii fun b hb => ?_)
  obtain ⟨byte, -, hmem⟩ := List.mem_flatMap.mp hb
  exact hexPad_ascii 2 byte.toNat b hmem

theorem upgradeHash_keeps (user : UserRecord) (password : Bytes) :
    Keeps typed (fun _ => True) (Account.upgradeHash user password) := by
  refine .call fun needed _ => .exit trivial fun _ => ?_
  refine .call fun hash _ => ?_
  split
  · exact .call fun _ _ => .pure trivial
  · exact .pure trivial

theorem login_keeps (w : Wiring) (req : LoginRequest) (identity : Bytes) :
    Keeps typed (LoginResult.Sound typed) (Account.login w req identity) := by
  have refused : ∀ code text, LoginResult.Sound typed { code, message := str text } :=
    fun _ _ => ⟨str_wellFormed _, wellFormed_nil, wellFormed_nil, sessionTexts_default,
      fun _ => isInt64_zero, fun _ => Nat.two_pow_pos 64⟩
  unfold Account.login
  split
  next err herr =>
    obtain ⟨text, rfl⟩ := firstFailure_literal herr
    exact .pure (refused _ _)
  refine .bind (overLimit_keeps _ _ _ _ _) fun limited hlimited => ?_
  split
  next retry =>
    exact .pure { refused .rateLimited _ with retryAfterSeconds := hlimited retry rfl }
  refine .call fun found hfound => .exit (refused _ _) fun _ => ?_
  refine .exit (refused _ _) fun _ => .exit (refused _ _) fun _ => ?_
  split
  next user huser =>
    refine .call fun verified _ => .exit (refused _ _) fun _ => ?_
    refine .bind (upgradeHash_keeps user req.password) fun upgraded _ => ?_
    refine .exit (refused _ _) fun _ => ?_
    refine .bind (randomHex_keeps 32) fun token htoken => ?_
    -- the names are those of the record, the token is made here
    have htexts : UserRecord.Texts user := hfound.1 user huser
    exact .exit (refused _ _) fun _ => .pure ⟨str_wellFormed _, htexts.nickname,
      htoken, ⟨htexts.username, htoken⟩, fun ht => hfound.2 ht user huser,
      fun _ => Nat.two_pow_pos 64⟩
  next => exact .pure (refused _ _)

/-- A result without a session. -/
theorem sessionResult_refused (code : ErrorCode) (message : String) :
    SessionResult.Sound typed { code, message := str message } :=
  ⟨str_wellFormed _, sessionTexts_default, fun _ => isInt64_zero⟩

theorem resumeSession_keeps (w : Wiring) {token : Bytes} (h : WellFormed token) :
    Keeps typed (SessionResult.Sound typed) (Account.resumeSession w token) := by
  refine .exit (sessionResult_refused _ _) fun _ => .call fun stored hstored => ?_
  split
  next s =>
    exact .pure ⟨str_wellFormed _, ⟨hstored.1 s rfl, h⟩, fun ht => hstored.2 ht s rfl⟩
  next => exact .pure (sessionResult_refused _ _)

theorem requestTokenMatches_keeps (w : Wiring) (conn : ConnId) (token : Bytes) :
    Keeps typed (fun _ => True) (Account.requestTokenMatches w conn token) := by
  refine .exit trivial fun _ => ?_
  refine .bind (getAuthenticatedSession_keeps conn) fun session _ => ?_
  split
  · refine .exit trivial fun _ => .exit trivial fun _ => ?_
    refine .call fun stored _ => ?_
    split
    · exact .pure trivial
    · exact .pure trivial
  · exact .pure trivial

theorem logout_keeps (conn : ConnId) :
    Keeps typed (fun r => WellFormed r.message) (Account.logout conn) := by
  refine .call fun session _ => ?_
  split
  · exact .pure (str_wellFormed _)
  · exact .pure (str_wellFormed _)

theorem whoami_keeps (conn : ConnId) :
    Keeps typed (SessionResult.Sound typed) (Account.whoami conn) := by
  refine .bind (getAuthenticatedSession_keeps conn) fun session hsession => ?_
  split
  next s => exact .pure ⟨str_wellFormed _, hsession s rfl⟩
  next => exact .pure (sessionResult_refused _ _)

theorem refreshPresence_keeps (w : Wiring) (conn : ConnId) :
    Keeps typed (fun _ => True) (Account.refreshPresence w conn) := by
  refine .call fun session _ => ?_
  split
  · exact .ite (fun _ => .call fun _ _ => .pure trivial) fun _ => .pure trivial
  · exact .pure trivial

/-! ## Chat -/

theorem storeMessage_keeps (w : Wiring) (pending : MessageRecord) :
    Keeps typed (fun r => ∀ m created, r = .ok m created → MessageRecord.Sound typed m)
      (ChatService.storeMessage w pending) := by
  -- a cached id counts only with the record that it names
  have hcached : Keeps typed (fun m => ∀ r ∈ m, MessageRecord.Sound typed r)
      (ChatService.cachedMessage w pending) := by
    refine .exit (fun _ hm => nomatch hm) fun _ => .call fun cached _ => ?_
    split
    · refine .call fun existing hexisting => ?_
      split
      next message hmessage =>
        refine .pure fun r hr => ?_
        obtain rfl := Option.some.inj hr
        have hm := (Option.filter_eq_some_iff.mp hmessage).1
        exact ⟨hexisting.1 _ hm, fun ht => hexisting.2 ht _ hm⟩
      next => exact .call fun _ _ => .pure fun _ hm => nomatch hm
    · exact .pure fun _ hm => nomatch hm
  refine .bind hcached fun cached hcached => ?_
  split
  next message =>
    refine .pure fun m created h => ?_
    obtain ⟨rfl, -⟩ := CreateMessageResult.ok.inj h
    exact hcached message rfl
  next => exact fun r hr m created h => ⟨hr.1 m created h, fun ht => hr.2 ht m created h⟩

theorem route_keeps (w : Wiring) (toUserId : UserId) :
    Keeps typed (fun _ => True) (ChatService.route w toUserId) := by
  refine .bind (Q := fun _ => True) (.onlyIf (fun _ _ => trivial) trivial) fun presence _ => ?_
  split
  · refine .exit trivial fun _ => .call fun conns _ => ?_
    exact .exit trivial fun _ => .pure trivial
  · exact .call fun conns _ => .pure trivial

theorem sendResult_keeps (w : Wiring) {session : ConnectionSession} {stored : MessageRecord}
    (hsession : ConnectionSession.Sound typed session) (hstored : MessageRecord.Sound typed stored)
    (conn : ConnId) (now : Timestamp) (created : Bool) :
    Keeps typed (SendMessageResult.Sound typed)
      (ChatService.sendResult w session conn now stored created) := by
  refine .bind (Q := fun _ => True) (.onlyIf (route_keeps w _) trivial) fun r _ => ?_
  refine .bind (Q := fun _ => True) (.onlyIf (.call fun _ _ => .pure trivial) trivial)
    fun sync _ => .pure ?_
  exact ⟨str_wellFormed _, hsession.texts.username, hstored.texts.content, hstored.texts.id,
    hstored.texts.conversationId, fun ht => (hstored.integers ht).sequence,
    fun ht => (hstored.integers ht).toUserId, fun _ => isInt64_status _,
    fun ht => (hstored.integers ht).createdAt, fun _ => Nat.two_pow_pos 64⟩

theorem sendMessage_keeps (w : Wiring) (conn : ConnId) (req : SendMessageRequest) :
    Keeps typed (SendMessageResult.Sound typed) (ChatService.sendMessage w conn req) := by
  have refused : ∀ code text, SendMessageResult.Sound typed { code, message := str text } :=
    fun _ _ => ⟨str_wellFormed _, wellFormed_nil, wellFormed_nil, wellFormed_nil, wellFormed_nil,
      fun _ => isInt64_zero, fun _ => isInt64_zero, fun _ => isInt64_zero, fun _ => isInt64_zero,
      fun _ => Nat.two_pow_pos 64⟩
  unfold ChatService.sendMessage
  split
  · exact .pure (refused _ _)
  split
  · exact .pure (refused _ _)
  refine .exit (refused _ _) fun _ => ?_
  refine .bind (getAuthenticatedSession_keeps conn) fun found hfound => ?_
  split
  next session =>
    refine .exit (refused _ _) fun _ => ?_
    refine .bind (overLimit_keeps _ _ _ _ _) fun limited hlimited => ?_
    split
    next retry =>
      exact .pure { refused .rateLimited _ with retryAfterSeconds := hlimited retry rfl }
    refine .call fun target _ => .exit (refused _ _) fun _ => ?_
    refine .exit (refused _ _) fun _ => ?_
    refine .call fun now _ => .call fun random _ => .call fun seq _ => ?_
    -- the answer is made of the stored message, not of the request
    refine .bind (storeMessage_keeps w _) fun result hresult => ?_
    split
    · exact .pure (refused _ _)
    next stored created =>
      have hsend := sendResult_keeps w (hfound session rfl) (hresult stored created rfl) conn now
        created
      exact .exit (refused _ _) fun _ => .ite (fun _ => .call fun _ _ => hsend) fun _ => hsend
  next => exact .pure (refused _ _)

theorem publishRemotePush_keeps (w : Wiring) (result : SendMessageResult) (payload : Bytes) :
    Keeps typed (fun _ => True) (ChatService.publishRemotePush w result payload) :=
  .exit trivial fun _ => fun _ _ => trivial

theorem pullOfflineMessages_keeps (conn : ConnId) (req : PullOfflineMessagesRequest) :
    Keeps typed (PullOfflineMessagesResult.Sound typed)
      (ChatService.pullOfflineMessages conn req) := by
  have refused : ∀ code text,
      PullOfflineMessagesResult.Sound typed { code, message := str text } :=
    fun _ _ => ⟨str_wellFormed _, [], rfl, List.forall_mem_nil _⟩
  refine .bind (getAuthenticatedSession_keeps conn) fun found _ => ?_
  split
  next session =>
    refine .exit (refused _ _) fun _ => .exit (refused _ _) fun _ => ?_
    split
    · exact .pure (refused _ _)
    refine .call fun list hlist => .exit (refused _ _) fun _ => ?_
    refine .pure ⟨str_wellFormed _, list.messages, rfl, fun m hm => ?_⟩
    exact ⟨hlist.1 m hm, fun ht => hlist.2 ht m hm⟩
  next => exact .pure (refused _ _)

theorem updateState_keeps (update : UserId → List Bytes → Call UpdateResult)
    (hupdate : ∀ userId ids r, IntegerAnswers _ (update userId ids) r → IsInt64 r.affectedRows)
    (failure : String) (conn : ConnId) {messageIds : List Bytes}
    (h : ∀ id ∈ messageIds, WellFormed id) :
    Keeps typed (MessageStateUpdateResult.Sound typed)
      (ChatService.updateState update failure conn messageIds) := by
  have refused : ∀ code text,
      MessageStateUpdateResult.Sound typed { code, message := str text } :=
    fun _ _ => ⟨str_wellFormed _, List.forall_mem_nil _, fun _ => isInt64_zero⟩
  refine .bind (getAuthenticatedSession_keeps conn) fun found _ => ?_
  split
  · split
    next err herr =>
      -- every complaint about the ids is a literal
      unfold ChatService.validateMessageIds at herr
      split_ifs at herr
      · exact .pure (Option.some.inj herr ▸ refused _ _)
      · exact .pure (Option.some.inj herr ▸ refused _ _)
      · obtain ⟨text, -, rfl⟩ := Option.map_eq_some_iff.mp herr
        exact .pure (refused _ _)
    refine .call fun result hresult => .exit (refused _ _) fun _ => ?_
    exact .pure ⟨str_wellFormed _, h, fun ht => hupdate _ _ result (hresult.2 ht)⟩
  · exact .pure (refused _ _)

/-! ## Friends -/

theorem makeActionError_sound (code : ErrorCode) (message : String) :
    FriendshipActionResult.Sound typed (FriendService.makeActionError code message) :=
  ⟨str_wellFormed _, nofun, fun _ => isInt64_zero⟩

theorem validateUserExists_keeps (userId : UserId) (missing queryFailed : String) :
    Keeps typed (fun r => ∀ e ∈ r, FriendshipActionResult.Sound typed e)
      (FriendService.validateUserExists userId missing queryFailed) := by
  have some_ok : ∀ code text, ∀ e ∈ some (FriendService.makeActionError code text),
      FriendshipActionResult.Sound typed e := by
    intro code text e he
    obtain rfl := Option.some.inj he
    exact makeActionError_sound code text
  refine .call fun user _ => .exit (some_ok _ _) fun _ => ?_
  exact .exit (some_ok _ _) fun _ => .pure fun _ he => nomatch he

theorem addFriend_keeps (conn : ConnId) {target : UserId} (h : typed → IsInt64 target) :
    Keeps typed (FriendshipActionResult.Sound typed) (FriendService.addFriend conn target) := by
  have refused := @makeActionError_sound typed
  refine .exit (refused _ _) fun _ => ?_
  refine .bind (getAuthenticatedSession_keeps conn) fun found _ => ?_
  split
  next session =>
    refine .exit (refused _ _) fun _ => ?_
    refine .bind (validateUserExists_keeps target _ _) fun error herror => ?_
    split
    · exact .pure (herror _ rfl)
    refine .call fun existing _ => ?_
    split
    · refine .pure ?_
      unfold FriendService.existingFriendshipError
      split
      all_goals exact refused _ _
    refine .exit (refused _ _) fun _ => ?_
    refine .call fun created hcreated => .exit (refused _ _) fun _ => ?_
    split
    next friendship hfriendship =>
      have hf := (Option.filter_eq_some_iff.mp hfriendship).1
      refine .pure ⟨str_wellFormed _, ?_, h⟩
      rintro _ ⟨⟩
      exact ⟨hcreated.1 _ hf, fun ht => hcreated.2 ht _ hf⟩
    next => exact .pure (refused _ _)
  next => exact .pure (refused _ _)

theorem acceptFriend_keeps (conn : ConnId) {requester : UserId} (h : typed → IsInt64 requester) :
    Keeps typed (FriendshipActionResult.Sound typed)
      (FriendService.acceptFriend conn requester) := by
  have refused := @makeActionError_sound typed
  refine .exit (refused _ _) fun _ => ?_
  refine .bind (getAuthenticatedSession_keeps conn) fun found _ => ?_
  split
  next session =>
    refine .exit (refused _ _) fun _ => ?_
    refine .bind (validateUserExists_keeps requester _ _) fun error herror => ?_
    split
    · exact .pure (herror _ rfl)
    refine .call fun existing _ => .exit (refused _ _) fun _ => .exit (refused _ _) fun _ => ?_
    split
    next friendship =>
      refine .exit (refused _ _) fun _ => .exit (refused _ _) fun _ => ?_
      refine .exit (refused _ _) fun _ => .call fun accepted haccepted => ?_
      refine .exit (refused _ _) fun _ => .exit (refused _ _) fun _ => ?_
      split
      next friendship hfriendship =>
        refine .pure ⟨str_wellFormed _, ?_, h⟩
        rintro _ ⟨⟩
        exact ⟨haccepted.1 _ hfriendship, fun ht => haccepted.2 ht _ hfriendship⟩
      next => exact .pure (refused _ _)
    next => exact .pure (refused _ _)
  next => exact .pure (refused _ _)

theorem deleteFriend_keeps (conn : ConnId) {friend : UserId} (h : typed → IsInt64 friend) :
    Keeps typed (FriendshipActionResult.Sound typed) (FriendService.deleteFriend conn friend) := by
  have refused := @makeActionError_sound typed
  refine .exit (refused _ _) fun _ => ?_
  refine .bind (getAuthenticatedSession_keeps conn) fun found _ => ?_
  split
  · refine .exit (refused _ _) fun _ => .call fun deleted _ => .exit (refused _ _) fun _ => ?_
    refine .exit (refused _ _) fun _ => .exit (refused _ _) fun _ => ?_
    exact .pure ⟨str_wellFormed _, nofun, h⟩
  · exact .pure (refused _ _)

theorem listFriends_keeps (conn : ConnId) :
    Keeps typed (ListFriendsResult.Sound typed) (FriendService.listFriends conn) := by
  refine .bind (getAuthenticatedSession_keeps conn) fun found _ => ?_
  split
  · refine .call fun list hlist => .exit ⟨str_wellFormed _, List.forall_mem_nil _⟩ fun _ => ?_
    exact .pure ⟨str_wellFormed _, fun f hf => ⟨hlist.1 f hf, fun ht => hlist.2 ht f hf⟩⟩
  · exact .pure ⟨str_wellFormed _, List.forall_mem_nil _⟩

/-! ## Groups -/

theorem userMissing_keeps (userId : UserId) :
    Keeps typed (fun _ => True) (GroupService.userMissing userId) :=
  .call fun _ _ => .pure trivial

theorem missingMember_keeps (members : List UserId) :
    Keeps typed (fun _ => True) (GroupService.missingMember members) := by
  induction members with
  | nil => exact .pure trivial
  | cons member rest ih =>
    refine .bind (userMissing_keeps member) fun status _ => ?_
    split
    · exact .pure trivial
    · exact ih

theorem createGroup_keeps (conn : ConnId) {req : CreateGroupRequest}
    (h : typed → ∀ member ∈ req.memberIds, IsInt64 member) :
    Keeps typed (CreateGroupResult.Sound typed) (GroupService.createGroup conn req) := by
  have refused : ∀ code text, CreateGroupResult.Sound typed { code, message := str text } :=
    fun _ _ => ⟨str_wellFormed _, nofun, fun _ => List.forall_mem_nil _⟩
  refine .bind (getAuthenticatedSession_keeps conn) fun found hfound => ?_
  split
  next session =>
    split
    · exact .pure (refused _ _)
    refine .exit (refused _ _) fun _ => ?_
    split
    next ids hids =>
      refine .bind (missingMember_keeps _) fun missing _ => ?_
      split
      · exact .pure (refused _ _)
      have hid : Keeps typed (fun _ => True) GroupService.buildGroupId :=
        .bind (randomHex_keeps 12) fun _ _ => .pure trivial
      refine .bind hid fun id _ => .exit (refused _ _) fun _ => .call fun created hcreated => ?_
      split
      next group hgroup =>
        have hg := (Option.filter_eq_some_iff.mp hgroup).1
        obtain ⟨-, -, hfrom⟩ := GroupService.uniqueMembers_spec (List.nodup_singleton _) hids
        refine .pure ⟨str_wellFormed _, ?_, fun ht id hid => ?_⟩
        · rintro _ ⟨⟩
          exact ⟨hcreated.1 _ hg, fun ht => hcreated.2 ht _ hg⟩
        · -- a member is the owner, or was named in the request
          rcases hfrom id hid with hself | hrequested
          · exact List.mem_singleton.mp hself ▸ (hfound session rfl).userId ht
          · exact h ht id hrequested
      next => exact .pure (refused _ _)
    next => exact .pure (refused _ _)
  next => exact .pure (refused _ _)

theorem addGroupMember_keeps (conn : ConnId) (req : AddGroupMemberRequest) :
    Keeps typed (AddGroupMemberResult.Sound typed) (GroupService.addGroupMember conn req) := by
  have refused : ∀ code text, AddGroupMemberResult.Sound typed { code, message := str text } :=
    fun _ _ => ⟨str_wellFormed _, nofun⟩
  refine .bind (getAuthenticatedSession_keeps conn) fun found _ => ?_
  split
  · split
    · exact .pure (refused _ _)
    refine .exit (refused _ _) fun _ => .bind (userMissing_keeps _) fun missing _ => ?_
    split
    · exact .pure (refused _ _)
    refine .call fun group _ => .exit (refused _ _) fun _ => ?_
    refine .exit (refused _ _) fun _ => .call fun members _ => ?_
    refine .exit (refused _ _) fun _ => ?_
    split
    · refine .exit (refused _ _) fun _ => .call fun added hadded => ?_
      refine .exit (refused _ _) fun _ => ?_
      split
      next member hmember =>
        have hm := (Option.filter_eq_some_iff.mp hmember).1
        refine .pure ⟨str_wellFormed _, ?_⟩
        rintro _ ⟨⟩
        exact ⟨hadded.1 _ hm, fun ht => hadded.2 ht _ hm⟩
      next => exact .pure (refused _ _)
    · exact .pure (refused _ _)
  · exact .pure (refused _ _)

theorem groupMessage_refused (code : ErrorCode) (text : String) :
    SendGroupMessageResult.Sound typed { code, message := str text } :=
  ⟨str_wellFormed _, wellFormed_nil, wellFormed_nil, wellFormed_nil, wellFormed_nil,
    List.forall_mem_nil _⟩

section

variable (w : Wiring) (session : ConnectionSession) {req : SendGroupMessageRequest}
  (conversationId : Bytes) (now : Timestamp) (hid : WellFormed req.groupId)

include hid

/-- One turn of the fan-out gives an error or a delivery. -/
theorem deliverTo_keeps (toUserId : UserId) :
    Keeps typed (fun r => match r with
        | .error e => SendGroupMessageResult.Sound typed e
        | .ok d => GroupMessageDelivery.Sound typed d)
      (GroupService.deliverTo w session req conversationId now toUserId) := by
  refine .call fun random _ => .call fun seq _ => .call fun created hcreated => ?_
  split
  · exact .pure (groupMessage_refused _ _)
  next stored isNew =>
    refine .exit (groupMessage_refused _ _) fun _ => .call fun conn _ => .pure ?_
    have htexts : MessageRecord.Texts stored := hcreated.1 stored isNew rfl
    have hints : typed → MessageRecord.Integers stored := fun ht => hcreated.2 ht stored isNew rfl
    exact ⟨htexts.id, hid, htexts.conversationId, fun ht => (hints ht).sequence,
      fun ht => (hints ht).toUserId, fun _ => isInt64_status _, fun ht => (hints ht).createdAt⟩

theorem fanOut_keeps (recipients : List UserId) :
    Keeps typed (fun r => match r with
        | .error e => SendGroupMessageResult.Sound typed e
        | .ok ds => ∀ d ∈ ds, GroupMessageDelivery.Sound typed d)
      (GroupService.fanOut w session req conversationId now recipients) := by
  induction recipients with
  | nil => exact .pure (List.forall_mem_nil _)
  | cons toUserId rest ih =>
    refine .bind (deliverTo_keeps w session conversationId now hid toUserId) fun turn hturn => ?_
    cases turn with
    | error e => exact .pure hturn
    | ok delivery =>
      refine .bind ih fun others hothers => .pure ?_
      cases others with
      | error e => exact hothers
      | ok ds => exact List.forall_mem_cons.mpr ⟨hturn, hothers⟩

theorem sendGroupMessage_keeps (conn : ConnId) (hcontent : WellFormed req.content) :
    Keeps typed (SendGroupMessageResult.Sound typed)
      (GroupService.sendGroupMessage w conn req) := by
  have refused := @groupMessage_refused typed
  refine .bind (getAuthenticatedSession_keeps conn) fun found hfound => ?_
  split
  next session =>
    split
    · exact .pure (refused _ _)
    split
    · exact .pure (refused _ _)
    split
    · exact .pure (refused _ _)
    refine .call fun group hgroup => .exit (refused _ _) fun _ => ?_
    split
    next g hg =>
      -- the conversation is that of the stored group
      have htexts : GroupRecord.Texts g := hgroup.1 g (Option.filter_eq_some_iff.mp hg).1
      refine .call fun members _ => .exit (refused _ _) fun _ => ?_
      refine .exit (refused _ _) fun _ => .call fun now _ => ?_
      refine .bind (fanOut_keeps w session g.conversationId now hid _) fun result hresult => ?_
      cases result with
      | error e => exact .pure hresult
      | ok messages =>
        exact .pure ⟨str_wellFormed _, hid, htexts.conversationId,
          (hfound session rfl).texts.username, hcontent, hresult⟩
    next => exact .pure (refused _ _)
  next => exact .pure (refused _ _)

end

end ChatServer.Service
