import ChatServer.Codec.Responses
import ChatServer.Service.Account
import ChatServer.Service.MessageId

/-!
# `ChatService`

Sending a message (checks, rate limit, storing it, finding out where its
recipient is connected), pulling offline messages, and the two updates of the
delivery state.
-/

namespace ChatServer.Service

open Base Db Codec

structure SendMessageResult where
  code : ErrorCode := .ok
  message : Bytes := []
  fromUserId : UserId := 0
  fromUsername : Bytes := []
  toUserId : UserId := 0
  toConnId : ConnId := 0
  toConnIds : List ConnId := []
  senderSyncConnIds : List ConnId := []
  remoteServerId : Bytes := []
  remoteConnId : ConnId := 0
  content : Bytes := []
  serverTime : Timestamp := 0
  messageId : Bytes := []
  conversationId : Bytes := []
  sequence : Int := 0
  status : Int := 0
  createdAt : Timestamp := 0
  retryAfterSeconds : Nat := 0

structure PullOfflineMessagesResult where
  code : ErrorCode := .ok
  message : Bytes := []
  messages : List OfflineMessage := []
  hasMore : Bool := false

structure MessageStateUpdateResult where
  code : ErrorCode := .ok
  message : Bytes := []
  messageIds : List Bytes := []
  affectedRows : Int := 0

def notLoggedIn : Bytes := str "User not logged in"

namespace ChatService

def maxPullOfflineLimit : Int := 100

/-- The record `sendMessage` wants to store. -/
def pendingMessage (session : ConnectionSession) (req : SendMessageRequest) (id : Bytes)
    (now : Timestamp) : MessageRecord where
  id := id
  conversationId := buildConversationId session.userId req.toUserId
  clientMsgId := req.clientMsgId
  fromUserId := session.userId
  toUserId := req.toUserId
  content := req.content
  createdAt := now

/-- The message the dedup cache knows of, if the database confirms it. -/
def cachedMessage (w : Wiring) (pending : MessageRecord) : Action (Option MessageRecord) := do
  if !w.dedupCache then
    return none
  let some cachedId ← Prog.perform (.lookup pending.fromUserId pending.clientMsgId) | return none
  let existing ← Prog.perform (.findMessageByClientMsgId pending.fromUserId pending.clientMsgId)
  match existing.message.filter fun m => existing.status = .ok ∧ m.id = cachedId with
  | some message => return some message
  | none => do
    Prog.perform (.remove pending.fromUserId pending.clientMsgId)
    return none

def storeMessage (w : Wiring) (pending : MessageRecord) : Action CreateMessageResult := do
  match ← cachedMessage w pending with
  | some message => return .ok message false
  | none => Prog.perform (.createMessage pending)

/-- Where the recipient is connected: the presence in the session store, the
local connections, and the one to prefer. -/
structure Route where
  presence : Option StoredUserPresence := none
  localConnIds : List ConnId := []
  targetConnId : Option ConnId := none

def route (w : Wiring) (toUserId : UserId) : Action Route := do
  let presence ← (Prog.perform (.getPresence toUserId)).onlyIf w.sessionStore none
  match presence with
  | some p =>
    if p.serverId ≠ w.serverId then
      return { presence }
    let conns ← Prog.perform (.getConnectionIds toUserId)
    if p.connectionId ∈ conns then
      return { presence, localConnIds := conns, targetConnId := some p.connectionId }
    return { presence }
  | none =>
    let conns ← Prog.perform (.getConnectionIds toUserId)
    return { localConnIds := conns, targetConnId := conns.head? }

/-- The sender's other connections. -/
def senderSync (fromUserId : UserId) (fromConnId : ConnId) : Action (List ConnId) := do
  let conns ← Prog.perform (.getConnectionIds fromUserId)
  return conns.filter (· ≠ fromConnId)

/-- The result of a message that is stored. A route is only looked for when the
message may still have to be pushed. -/
def sendResult (w : Wiring) (session : ConnectionSession) (fromConnId : ConnId) (now : Timestamp)
    (stored : MessageRecord) (created : Bool) : Action SendMessageResult := do
  let canAttemptPush : Bool := created || stored.status = .stored
  let r ← (route w stored.toUserId).onlyIf canAttemptPush {}
  let sync ← (senderSync session.userId fromConnId).onlyIf canAttemptPush []
  let remote := r.presence.filter (·.serverId ≠ w.serverId)
  let toConnIds := if remote.isNone then r.localConnIds else []
  return {
    code := .ok
    message := str "Success"
    fromUserId := session.userId
    fromUsername := session.username
    toUserId := stored.toUserId
    toConnIds
    toConnId := toConnIds.head?.getD (r.targetConnId.getD 0)
    senderSyncConnIds := sync
    remoteServerId := (remote.map (·.serverId)).getD []
    remoteConnId := (remote.map (·.connectionId)).getD 0
    content := stored.content
    serverTime := now
    messageId := stored.id
    conversationId := stored.conversationId
    sequence := stored.sequence
    status := stored.status.toProtocol
    createdAt := stored.createdAt }

/-- `sendMessage`. -/
def sendMessage (w : Wiring) (fromConnId : ConnId) (req : SendMessageRequest) :
    Action SendMessageResult := do
  if let some err := Validator.messageContent req.content then
    return { code := if req.content.length > Validator.messageMaxBytes then .messageTooLong
                     else .invalidParam,
             message := str err }
  if let some err := Validator.clientMessageId req.clientMsgId then
    return { code := .invalidParam, message := str err }
  if req.toUserId ≤ 0 then
    return { code := .invalidParam, message := str "to_user_id must be greater than 0" }
  let some session ← getAuthenticatedSession fromConnId
    | return { code := .notLoggedIn, message := notLoggedIn }
  if req.toUserId = session.userId then
    return { code := .cannotSendToSelf, message := str "Cannot send message to yourself" }
  if let some retry ← Account.overLimit w (str "send") (intText session.userId) w.sendRateLimit
      w.sendRateWindowSeconds then
    return { code := .rateLimited, message := str "send message rate limit exceeded",
             retryAfterSeconds := retry }
  let target ← Prog.perform (.findById req.toUserId)
  if target.status = .notFound ∨ (target.status = .ok ∧ target.user = none) then
    return { code := .userNotFound, message := str "target user not found" }
  if target.status ≠ .ok then
    return { code := mapRepositoryError target.status, message := str "query target user failed" }
  let now ← Prog.perform .now
  let random ← Prog.perform .nextRandom
  let seq ← Prog.perform .nextMessageSeq
  let pending := pendingMessage session req (buildMessageId now w.pid session.userId seq random) now
  match ← storeMessage w pending with
  | .failed status =>
    return { code := mapRepositoryError status, message := str "store message failed" }
  | .ok stored created =>
    if !isSameIdempotentMessage pending stored then
      return { code := .idempotencyConflict,
               message := str "client_msg_id conflicts with existing message" }
    if w.dedupCache then
      Prog.perform (.save session.userId req.clientMsgId stored.id)
    sendResult w session fromConnId now stored created

/-- `publishRemotePush`. -/
def publishRemotePush (w : Wiring) (result : SendMessageResult) (payload : Bytes) :
    Action Bool := do
  if !w.remotePushPublisher || result.remoteServerId.isEmpty || result.remoteConnId = 0 ||
      result.messageId.isEmpty || payload.isEmpty then
    return false
  Prog.perform (.publish result.remoteServerId
    { eventId := result.messageId, messageId := result.messageId
      fromUserId := result.fromUserId, toUserId := result.toUserId
      targetConnectionId := result.remoteConnId, payload })

def offlineMessage (record : MessageRecord) : OfflineMessage where
  messageId := record.id
  conversationId := record.conversationId
  sequence := record.sequence
  fromUserId := record.fromUserId
  toUserId := record.toUserId
  content := record.content
  createdAt := record.createdAt
  status := record.status.toProtocol

/-- `pullOfflineMessages`. -/
def pullOfflineMessages (conn : ConnId) (req : PullOfflineMessagesRequest) :
    Action PullOfflineMessagesResult := do
  let some session ← getAuthenticatedSession conn
    | return { code := .notLoggedIn, message := notLoggedIn }
  if !req.beforeMessageId.isEmpty then
    return { code := .invalidParam, message := str "before_message_id is not supported" }
  if req.limit ≤ 0 ∨ maxPullOfflineLimit < req.limit then
    return { code := .invalidParam, message := str "limit must be between 1 and 100" }
  if let some err := Validator.cursor req.sinceMessageId then
    return { code := .invalidParam, message := str err }
  let list ← Prog.perform (.listOfflineMessages session.userId req.limit req.sinceMessageId)
  if list.status ≠ .ok then
    return { code := mapRepositoryError list.status, message := str "list offline messages failed" }
  return { code := .ok, message := str "Success", hasMore := list.hasMore,
           messages := list.messages.map offlineMessage }

/-- `ValidateMessageIds`. -/
def validateMessageIds (messageIds : List Bytes) : Option Bytes :=
  if messageIds.isEmpty then some (str "message_ids is empty")
  else if messageIds.length > 100 then some (str "message_ids exceeds maximum batch size")
  else (messageIds.findSome? Validator.messageId).map str

/-- `acknowledgeMessages` and `markMessagesRead`. -/
def updateState (update : UserId → List Bytes → Call UpdateResult) (failure : String)
    (conn : ConnId) (messageIds : List Bytes) : Action MessageStateUpdateResult := do
  let some session ← getAuthenticatedSession conn
    | return { code := .notLoggedIn, message := notLoggedIn }
  if let some err := validateMessageIds messageIds then
    return { code := .invalidParam, message := err }
  let result ← Prog.perform (update session.userId messageIds)
  if result.status ≠ .ok then
    return { code := mapRepositoryError result.status, message := str failure }
  return { code := .ok, message := str "Success", messageIds, affectedRows := result.affectedRows }

def acknowledgeMessages : ConnId → List Bytes → Action MessageStateUpdateResult :=
  updateState .markDelivered "mark messages delivered failed"

def markMessagesRead : ConnId → List Bytes → Action MessageStateUpdateResult :=
  updateState .markRead "mark messages read failed"

end ChatService

end ChatServer.Service
