import ChatServer.Net.TcpServer
import ChatServer.Service.GroupService

/-!
# `MessageHandler`

Decodes a packet, routes it to a service and encodes the answer. Every response
goes through `encodeResponse`, which is called outside any `try` block: what
`dump()` throws leaves `handle`.
-/

namespace ChatServer.Handler

open Base Json Codec Service Net

/-- `codec_.encodeResponse`. -/
def encode (resp : Response) : Action Bytes := Prog.ofExcept (encodeResponse resp)

/-- Encode a response into a result with nothing else in it. -/
def reply (resp : Response) : Action HandleResult := do
  return { response := ← encode resp }

/-- `MakeInvalidParamResponse`. -/
def makeInvalidParamResponse (msg : Message) (message : Bytes) : Response where
  msgType := msg.msgType ++ str "_resp"
  seq := msg.seq
  code := .invalidParam
  message := message

/-- The types `IsProtectedMessage` lists. -/
def protectedTypes : List Bytes :=
  [str "logout", str "whoami", str "send_message", str "pull_offline_messages", str "message_ack",
    str "mark_message_read", str "add_friend", str "accept_friend", str "delete_friend",
    str "list_friends", str "create_group", str "add_group_member", str "send_group_message"]

/-- `IsProtectedMessage`. -/
def isProtectedMessage (messageType : Bytes) : Bool := protectedTypes.contains messageType

/-- The response of a handler that names it after the request. -/
def responseTo (msg : Message) (code : ErrorCode) (message : Bytes) : Response where
  msgType := msg.msgType ++ str "_resp"
  seq := msg.seq
  code := code
  message := message

/-- The response of a handler with a fixed name. -/
def response (msgType : String) (msg : Message) (code : ErrorCode) (message : Bytes) : Response where
  msgType := str msgType
  seq := msg.seq
  code := code
  message := message

/-- `resp.data["retry_after_seconds"]`, on a request over its rate limit. -/
def withRetry (resp : Response) (retryAfterSeconds : Nat) : Response :=
  if resp.code = .rateLimited then
    resp.assign [(str "retry_after_seconds", .numberUnsigned retryAfterSeconds)]
  else resp

def handleRegister (w : Wiring) (msg : Message) (identity : Bytes) : Action HandleResult := do
  match parseRegisterRequest msg.data with
  | .error err => reply (makeInvalidParamResponse msg (str err))
  | .ok req =>
    let result ← Account.registerUser w req identity
    let resp := withRetry (responseTo msg result.code result.message) result.retryAfterSeconds
    reply (if result.code = .ok then fillRegisterResponse resp result.userId else resp)

def handleLogin (w : Wiring) (msg : Message) (identity : Bytes) : Action HandleResult := do
  match parseLoginRequest msg.data with
  | .error err => reply (makeInvalidParamResponse msg (str err))
  | .ok req =>
    let result ← Account.login w req identity
    let resp := withRetry (responseTo msg result.code result.message) result.retryAfterSeconds
    if result.code ≠ .ok then
      return ← reply resp
    let body ← encode (fillLoginResponse resp ⟨result.userId, result.nickname, result.token⟩)
    return { response := body, sessionAction := .bind, pendingSession := result.session }

def handleResumeSession (w : Wiring) (msg : Message) : Action HandleResult := do
  let resume ← Account.resumeSession w msg.token
  let resp := response "resume_session_resp" msg resume.code resume.message
  if resume.code ≠ .ok then
    return ← reply resp
  let body ← encode (resp.assign
    [(str "user_id", .numberInteger resume.session.userId),
      (str "username", .string resume.session.username)])
  return { response := body, sessionAction := .bind, pendingSession := resume.session }

def handleLogout (msg : Message) (conn : ConnId) : Action HandleResult := do
  let result ← Account.logout conn
  let body ← encode (responseTo msg result.code result.message)
  return { response := body, sessionAction := if result.code = .ok then .unbind else .none }

def handleHeartbeat (msg : Message) : Action HandleResult := do
  let now ← Prog.perform .now
  reply (fillHeartbeatResponse (responseTo msg .ok (str "Heartbeat received")) now)

def handleWhoAmI (msg : Message) (conn : ConnId) : Action HandleResult := do
  let result ← Account.whoami conn
  let resp := responseTo msg result.code result.message
  reply (if result.code = .ok then
    resp.assign
      [(str "user_id", .numberInteger result.session.userId),
        (str "username", .string result.session.username),
        (str "token", .string result.session.token)]
    else resp)

def handleUnknown (msg : Message) : Action HandleResult :=
  reply (responseTo msg .unknownMessageType (str "Unknown message type: " ++ msg.msgType))

/-! ## Chat -/

def sendMessageAck (resp : Response) (result : SendMessageResult) : Response :=
  fillSendMessageAck resp
    ⟨result.messageId, result.conversationId, result.sequence, result.toUserId, result.status,
      result.createdAt⟩

/-- The `message_push` and `message_sync_push` of a sent message. -/
def messagePush (msgType message : String) (result : SendMessageResult) : Response :=
  fillMessagePush { msgType := str msgType, message := str message }
    ⟨result.messageId, result.conversationId, result.sequence, result.fromUserId,
      result.fromUsername, result.toUserId, result.content, result.createdAt, result.serverTime⟩

/-- The recipient's connections on this server. -/
def pushTargets (result : SendMessageResult) : List ConnId :=
  if result.toConnIds.isEmpty ∧ result.toConnId ≠ 0 then [result.toConnId] else result.toConnIds

/-- The pushes to the sender's other connections. -/
def syncPushes (result : SendMessageResult) : Action (List OutboundMessage) := do
  if result.senderSyncConnIds.isEmpty then
    return []
  let payload ← encode (messagePush "message_sync_push" "message synced" result)
  return result.senderSyncConnIds.map fun c => ⟨c, result.fromUserId, payload, []⟩

def handleSendMessage (w : Wiring) (msg : Message) (conn : ConnId) : Action HandleResult := do
  match parseSendMessageRequest msg.data with
  | .error err => reply (makeInvalidParamResponse msg (str err))
  | .ok req =>
    let result ← ChatService.sendMessage w conn req
    let ack := withRetry (response "send_message_resp" msg result.code result.message)
      result.retryAfterSeconds
    if result.code ≠ .ok then
      return ← reply ack
    let payload ← encode (messagePush "message_push" "new message" result)
    let targets := pushTargets result
    if targets.isEmpty && !result.remoteServerId.isEmpty then
      let _ ← ChatService.publishRemotePush w result payload
    let sync ← syncPushes result
    let body ← encode (sendMessageAck ack result)
    return { response := body
             pushes := targets.map (fun c => ⟨c, result.toUserId, payload, []⟩) ++ sync }

def handlePullOfflineMessages (msg : Message) (conn : ConnId) : Action HandleResult := do
  match parsePullOfflineMessagesRequest msg.data with
  | .error err => reply (makeInvalidParamResponse msg (str err))
  | .ok req =>
    let result ← ChatService.pullOfflineMessages conn req
    let resp := response "pull_offline_messages_resp" msg result.code result.message
    reply (if result.code = .ok then
      fillPullOfflineMessagesResponse resp result.messages result.hasMore else resp)

/-- `handleMessageAck` and `handleMarkMessageRead`. -/
def handleStateUpdate (msgType : String)
    (update : ConnId → List Bytes → Action MessageStateUpdateResult) (msg : Message)
    (conn : ConnId) : Action HandleResult := do
  match parseMessageIds msg.data with
  | .error err => reply (makeInvalidParamResponse msg (str err))
  | .ok messageIds =>
    let result ← update conn messageIds
    let resp := response msgType msg result.code result.message
    reply (if result.code = .ok then
      fillMessageStateUpdateResponse resp result.messageIds result.affectedRows else resp)

def handleMessageAck : Message → ConnId → Action HandleResult :=
  handleStateUpdate "message_ack_resp" ChatService.acknowledgeMessages

def handleMarkMessageRead : Message → ConnId → Action HandleResult :=
  handleStateUpdate "mark_message_read_resp" ChatService.markMessagesRead

/-! ## Friends -/

/-- `handleAddFriend`, `handleAcceptFriend` and `handleDeleteFriend`, which differ
in what they put into the response. -/
def handleFriendAction (msgType : String) (parse : Json → Except String UserId)
    (act : ConnId → UserId → Action FriendshipActionResult)
    (fill : Response → FriendshipActionResult → Response) (w : Wiring) (msg : Message)
    (conn : ConnId) : Action HandleResult := do
  if !w.friendService then
    return ← reply (response msgType msg .internalError (str "friend service unavailable"))
  match parse msg.data with
  | .error err => reply (makeInvalidParamResponse msg (str err))
  | .ok userId =>
    let result ← act conn userId
    let resp := response msgType msg result.code result.message
    reply (if result.code = .ok then fill resp result else resp)

def fillAction (resp : Response) (result : FriendshipActionResult) : Response :=
  match result.friendship with
  | some friendship => fillFriendshipActionResponse resp friendship result.friendUserId
  | none => resp

def handleAddFriend : Wiring → Message → ConnId → Action HandleResult :=
  handleFriendAction "add_friend_resp" parseAddFriendRequest FriendService.addFriend fillAction

def handleAcceptFriend : Wiring → Message → ConnId → Action HandleResult :=
  handleFriendAction "accept_friend_resp" parseAcceptFriendRequest FriendService.acceptFriend
    fillAction

def handleDeleteFriend : Wiring → Message → ConnId → Action HandleResult :=
  handleFriendAction "delete_friend_resp" parseDeleteFriendRequest FriendService.deleteFriend
    fun resp result => fillDeleteFriendResponse resp result.friendUserId result.deleted

def handleListFriends (w : Wiring) (msg : Message) (conn : ConnId) : Action HandleResult := do
  if !w.friendService then
    return ← reply (response "list_friends_resp" msg .internalError
      (str "friend service unavailable"))
  let result ← FriendService.listFriends conn
  let resp := response "list_friends_resp" msg result.code result.message
  reply (if result.code = .ok then fillListFriendsResponse resp result.friends else resp)

/-! ## Groups -/

def groupUnavailable : Bytes := str "group service unavailable"

def handleCreateGroup (w : Wiring) (msg : Message) (conn : ConnId) : Action HandleResult := do
  if !w.groupService then
    return ← reply (response "create_group_resp" msg .internalError groupUnavailable)
  match parseCreateGroupRequest msg.data with
  | .error err => reply (makeInvalidParamResponse msg (str err))
  | .ok req =>
    let result ← GroupService.createGroup conn req
    let resp := response "create_group_resp" msg result.code result.message
    match result.group.filter fun _ => result.code = .ok with
    | some group => reply (fillCreateGroupResponse resp group result.memberIds)
    | none => reply resp

def handleAddGroupMember (w : Wiring) (msg : Message) (conn : ConnId) : Action HandleResult := do
  if !w.groupService then
    return ← reply (response "add_group_member_resp" msg .internalError groupUnavailable)
  match parseAddGroupMemberRequest msg.data with
  | .error err => reply (makeInvalidParamResponse msg (str err))
  | .ok req =>
    let result ← GroupService.addGroupMember conn req
    let resp := response "add_group_member_resp" msg result.code result.message
    match result.member.filter fun _ => result.code = .ok with
    | some member => reply (fillAddGroupMemberResponse resp member)
    | none => reply resp

def groupMessagePush (result : SendGroupMessageResult) (delivery : GroupMessageDelivery) :
    Response :=
  ({ msgType := str "group_message_push", message := str "new group message" } : Response).assign
    [(str "message_id", .string delivery.messageId), (str "group_id", .string delivery.groupId),
      (str "conversation_id", .string delivery.conversationId),
      (str "sequence", .numberInteger delivery.sequence),
      (str "from_user_id", .numberInteger result.fromUserId),
      (str "from_username", .string result.fromUsername),
      (str "to_user_id", .numberInteger delivery.toUserId),
      (str "content", .string result.content),
      (str "created_at", .numberInteger delivery.createdAt),
      (str "server_time", .numberInteger result.serverTime)]

/-- The loop over the deliveries; members without a connection are skipped. -/
def groupPushes (result : SendGroupMessageResult) :
    List GroupMessageDelivery → Action (List OutboundMessage)
  | [] => return []
  | delivery :: rest => do
    if delivery.targetConnId = 0 then
      return ← groupPushes result rest
    let payload ← encode (groupMessagePush result delivery)
    let pushes ← groupPushes result rest
    return ⟨delivery.targetConnId, delivery.toUserId, payload, []⟩ :: pushes

def handleSendGroupMessage (w : Wiring) (msg : Message) (conn : ConnId) : Action HandleResult := do
  if !w.groupService then
    return ← reply (response "send_group_message_resp" msg .internalError groupUnavailable)
  match parseSendGroupMessageRequest msg.data with
  | .error err => reply (makeInvalidParamResponse msg (str err))
  | .ok req =>
    let result ← GroupService.sendGroupMessage w conn req
    let resp := response "send_group_message_resp" msg result.code result.message
    if result.code ≠ .ok then
      return ← reply resp
    let pushes ← groupPushes result result.messages
    let body ← encode
      (fillSendGroupMessageResponse resp result.groupId result.conversationId result.messages)
    return { response := body, pushes }

/-! ## Routing -/

/-- A protected request with a token must come from the session of that token. -/
def tokenRefused (w : Wiring) (msg : Message) (conn : ConnId) : Action Bool := do
  if !isProtectedMessage msg.msgType || msg.token.isEmpty then
    return false
  return !(← Account.requestTokenMatches w conn msg.token)

/-- The `else if` chain of `handle`. -/
def dispatch (w : Wiring) (msg : Message) (conn : ConnId) (peerIp : Bytes) : Action HandleResult :=
  if msg.msgType = str "register" then handleRegister w msg peerIp
  else if msg.msgType = str "login" then handleLogin w msg peerIp
  else if msg.msgType = str "logout" then handleLogout msg conn
  else if msg.msgType = str "heartbeat" then handleHeartbeat msg
  else if msg.msgType = str "whoami" then handleWhoAmI msg conn
  else if msg.msgType = str "send_message" then handleSendMessage w msg conn
  else if msg.msgType = str "pull_offline_messages" then handlePullOfflineMessages msg conn
  else if msg.msgType = str "message_ack" then handleMessageAck msg conn
  else if msg.msgType = str "mark_message_read" then handleMarkMessageRead msg conn
  else if msg.msgType = str "add_friend" then handleAddFriend w msg conn
  else if msg.msgType = str "accept_friend" then handleAcceptFriend w msg conn
  else if msg.msgType = str "delete_friend" then handleDeleteFriend w msg conn
  else if msg.msgType = str "list_friends" then handleListFriends w msg conn
  else if msg.msgType = str "create_group" then handleCreateGroup w msg conn
  else if msg.msgType = str "add_group_member" then handleAddGroupMember w msg conn
  else if msg.msgType = str "send_group_message" then handleSendGroupMessage w msg conn
  else handleUnknown msg

/-- `handle`, after a packet has been decoded. -/
def handleMessage (w : Wiring) (msg : Message) (conn : ConnId) (peerIp : Bytes) :
    Action HandleResult := do
  if msg.msgType = str "resume_session" then
    return ← handleResumeSession w msg
  if ← tokenRefused w msg conn then
    return ← reply (responseTo msg .invalidCredentials
      (str "request token does not match connection session"))
  Account.refreshPresence w conn
  dispatch w msg conn peerIp

/-- `MessageHandler::handle`. -/
def handle (w : Wiring) (raw : Bytes) (conn : ConnId) (peerIp : Bytes) : Action HandleResult :=
  match decodeMessage raw with
  | .error (msg, err) => reply (makeInvalidParamResponse msg err)
  | .ok msg => handleMessage w msg conn peerIp

end ChatServer.Handler
