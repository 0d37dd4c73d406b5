import ChatServer.Service.FriendService

/-!
# `GroupService`

Creating a group, adding a member, and the fan-out of a group message: one
stored message for every member but the sender.
-/

namespace ChatServer.Service

open Base Db Codec

structure CreateGroupResult where
  code : ErrorCode := .ok
  message : Bytes := []
  group : Option GroupRecord := none
  memberIds : List UserId := []

structure AddGroupMemberResult where
  code : ErrorCode := .ok
  message : Bytes := []
  member : Option GroupMemberRecord := none

structure SendGroupMessageResult where
  code : ErrorCode := .ok
  message : Bytes := []
  groupId : Bytes := []
  conversationId : Bytes := []
  fromUserId : UserId := 0
  fromUsername : Bytes := []
  content : Bytes := []
  serverTime : Timestamp := 0
  messages : List GroupMessageDelivery := []

namespace GroupService

def maxInitialGroupMembers : Nat := 50

/-- `MapRepositoryError`; unlike the other services', a duplicate is an existing
member. -/
def mapRepositoryError : RepositoryStatus → ErrorCode
  | .duplicate => .groupMemberAlreadyExists
  | .insertFailed => .dbInsertFailed
  | .queryFailed | .connectionUnavailable | .borrowTimeout | .notFound => .dbQueryFailed
  | .ok => .internalError

/-- `RoleCanManageMembers`. -/
def roleCanManageMembers (role : Bytes) : Bool := role = str "owner" ∨ role = str "admin"

/-- `FindMember`. -/
def findMember (members : List GroupMemberRecord) (userId : UserId) : Option GroupMemberRecord :=
  members.find? (·.userId = userId)

/-- The code for a user who cannot be found. -/
def userError (status : RepositoryStatus) : ErrorCode :=
  if status = .notFound then .userNotFound else mapRepositoryError status

/-- `UserExists`: `some` is the status of the failed lookup. -/
def userMissing (userId : UserId) : Action (Option RepositoryStatus) := do
  let user ← Prog.perform (.findById userId)
  return if user.status = .ok ∧ user.user.isSome then none else some user.status

/-- The owner and the requested members, each once; `none` for a member id that
is not positive. -/
def uniqueMembers (seen : List UserId) : List UserId → Option (List UserId)
  | [] => some seen
  | member :: rest =>
    if member ≤ 0 then none
    else uniqueMembers (if member ∈ seen then seen else seen ++ [member]) rest

/-- The owner first, then the requested members, each once. -/
theorem uniqueMembers_spec {seen requested ids : List UserId} (hseen : seen.Nodup)
    (h : uniqueMembers seen requested = some ids) :
    ids.Nodup ∧ (∀ id ∈ seen, id ∈ ids) ∧ ∀ id ∈ ids, id ∈ seen ∨ id ∈ requested := by
  induction requested generalizing seen with
  | nil =>
    obtain rfl := Option.some.inj h
    exact ⟨hseen, fun _ hid => hid, fun _ hid => .inl hid⟩
  | cons member rest ih =>
    unfold uniqueMembers at h
    split at h
    · cases h
    · have hnext : (if member ∈ seen then seen else seen ++ [member]).Nodup := by
        split
        next => exact hseen
        next hnew =>
          refine hseen.append (List.nodup_singleton _) ?_
          rwa [List.disjoint_singleton]
      obtain ⟨hnodup, hkept, hfrom⟩ := ih hnext h
      refine ⟨hnodup, fun id hid => hkept id ?_, fun id hid => ?_⟩
      · split
        · exact hid
        · exact List.mem_append_left _ hid
      · rcases hfrom id hid with hnew | hrest
        · split at hnew
          · exact .inl hnew
          · rcases List.mem_append.mp hnew with hold | hself
            · exact .inl hold
            · exact .inr (List.mem_singleton.mp hself ▸ List.mem_cons_self)
        · exact .inr (List.mem_cons_of_mem _ hrest)

/-- The first member that cannot be found. -/
def missingMember : List UserId → Action (Option RepositoryStatus)
  | [] => return none
  | member :: rest => do
    match ← userMissing member with
    | some status => return some status
    | none => missingMember rest

/-- `BuildGroupId`. -/
def buildGroupId : Action Bytes := do
  let random ← Account.randomHex 12
  return if random.isEmpty then [] else str "grp_" ++ random

/-- `createGroup`. -/
def createGroup (conn : ConnId) (req : CreateGroupRequest) : Action CreateGroupResult := do
  let some session ← getAuthenticatedSession conn
    | return { code := .notLoggedIn, message := notLoggedIn }
  if let some err := Validator.nickname req.name then
    return { code := .invalidParam, message := str err }
  if req.memberIds.length > maxInitialGroupMembers then
    return { code := .invalidParam, message := str "too many initial group members" }
  let some memberIds := uniqueMembers [session.userId] req.memberIds
    | return { code := .invalidParam, message := str "member_id must be greater than 0" }
  if let some status ← missingMember memberIds then
    return { code := userError status, message := str "group member not found" }
  let id ← buildGroupId
  if id.isEmpty then
    return { code := .internalError, message := str "generate group id failed" }
  let group : GroupRecord :=
    { id, name := req.name, ownerId := session.userId
      conversationId := buildGroupConversationId id }
  let members := memberIds.map fun member =>
    { groupId := id, userId := member
      role := if member = session.userId then str "owner" else str "member" }
  let created ← Prog.perform (.createGroup group members)
  let some group := created.group.filter fun _ => created.status = .ok
    | return { code := mapRepositoryError created.status, message := str "create group failed" }
  return { code := .ok, message := str "group created", group := some group, memberIds }

/-- `addGroupMember`. -/
def addGroupMember (conn : ConnId) (req : AddGroupMemberRequest) : Action AddGroupMemberResult := do
  let some session ← getAuthenticatedSession conn
    | return { code := .notLoggedIn, message := notLoggedIn }
  if let some err := Validator.conversationId req.groupId then
    return { code := .invalidParam, message := str err }
  if req.userId ≤ 0 then
    return { code := .invalidParam, message := str "user_id must be greater than 0" }
  if let some status ← userMissing req.userId then
    return { code := userError status, message := str "target user not found" }
  let group ← Prog.perform (.findGroup req.groupId)
  if group.status = .notFound then
    return { code := .groupNotFound, message := str "group not found" }
  if group.status ≠ .ok ∨ group.group = none then
    return { code := mapRepositoryError group.status, message := str "query group failed" }
  let members ← Prog.perform (.listMembers req.groupId)
  if members.status ≠ .ok then
    return { code := mapRepositoryError members.status, message := str "list group members failed" }
  let some _ := (findMember members.members session.userId).filter (roleCanManageMembers ·.role)
    | return { code := .permissionDenied, message := str "permission denied" }
  if (findMember members.members req.userId).isSome then
    return { code := .groupMemberAlreadyExists, message := str "group member already exists" }
  let added ← Prog.perform (.addMember ⟨req.groupId, req.userId, str "member"⟩)
  if added.status = .duplicate then
    return { code := .groupMemberAlreadyExists, message := str "group member already exists" }
  let some member := added.member.filter fun _ => added.status = .ok
    | return { code := mapRepositoryError added.status, message := str "add group member failed" }
  return { code := .ok, message := str "group member added", member := some member }

/-- The record stored for one member. -/
def pendingMessage (w : Wiring) (session : ConnectionSession) (req : SendGroupMessageRequest)
    (conversationId id : Bytes) (toUserId : UserId) (now : Timestamp) : MessageRecord where
  id := id
  conversationId := conversationId
  clientMsgId := buildRecipientClientMessageId w.stringHash req.groupId req.clientMsgId toUserId
  fromUserId := session.userId
  toUserId := toUserId
  content := req.content
  createdAt := now

/-- One turn of the fan-out: the delivery, or the error that ends it. -/
def deliverTo (w : Wiring) (session : ConnectionSession) (req : SendGroupMessageRequest)
    (conversationId : Bytes) (now : Timestamp) (toUserId : UserId) :
    Action (Except SendGroupMessageResult GroupMessageDelivery) := do
  let random ← Prog.perform .nextRandom
  let seq ← Prog.perform .nextGroupMessageSeq
  let id := buildGroupMessageId now w.pid session.userId toUserId seq random
  let pending := pendingMessage w session req conversationId id toUserId now
  match ← Prog.perform (.createMessage pending) with
  | .failed status =>
    return .error { code := mapRepositoryError status, message := str "store group message failed" }
  | .ok stored _ =>
    if !isSameIdempotentMessage pending stored then
      return .error { code := .idempotencyConflict,
                      message := str "client_msg_id conflicts with existing group message" }
    let conn ← Prog.perform (.getConnectionId stored.toUserId)
    return .ok
      { messageId := stored.id, groupId := req.groupId, conversationId := stored.conversationId
        sequence := stored.sequence, toUserId := stored.toUserId, targetConnId := conn.getD 0
        status := stored.status.toProtocol, createdAt := stored.createdAt }

/-- The loop over the members. -/
def fanOut (w : Wiring) (session : ConnectionSession) (req : SendGroupMessageRequest)
    (conversationId : Bytes) (now : Timestamp) :
    List UserId → Action (Except SendGroupMessageResult (List GroupMessageDelivery))
  | [] => return .ok []
  | toUserId :: rest => do
    match ← deliverTo w session req conversationId now toUserId with
    | .error e => return .error e
    | .ok delivery =>
      let deliveries ← fanOut w session req conversationId now rest
      return deliveries.map (delivery :: ·)

/-- `sendGroupMessage`. -/
def sendGroupMessage (w : Wiring) (conn : ConnId) (req : SendGroupMessageRequest) :
    Action SendGroupMessageResult := do
  let some session ← getAuthenticatedSession conn
    | return { code := .notLoggedIn, message := notLoggedIn }
  if let some err := Validator.conversationId req.groupId then
    return { code := .invalidParam, message := str err }
  if let some err := Validator.clientMessageId req.clientMsgId then
    return { code := .invalidParam, message := str err }
  if let some err := Validator.messageContent req.content then
    return { code := if req.content.length > Validator.messageMaxBytes then .messageTooLong
                     else .invalidParam,
             message := str err }
  let found ← Prog.perform (.findGroup req.groupId)
  if found.status = .notFound then
    return { code := .groupNotFound, message := str "group not found" }
  let some group := found.group.filter fun _ => found.status = .ok
    | return { code := mapRepositoryError found.status, message := str "query group failed" }
  let members ← Prog.perform (.listMembers req.groupId)
  if members.status ≠ .ok then
    return { code := mapRepositoryError members.status, message := str "list group members failed" }
  if (findMember members.members session.userId).isNone then
    return { code := .permissionDenied, message := str "permission denied" }
  let now ← Prog.perform .now
  let recipients := (members.members.map (·.userId)).filter (· ≠ session.userId)
  match ← fanOut w session req group.conversationId now recipients with
  | .error e => return e
  | .ok messages =>
    return {
      code := .ok
      message := str "Success"
      groupId := req.groupId
      conversationId := group.conversationId
      fromUserId := session.userId
      fromUsername := session.username
      content := req.content
      serverTime := now
      messages }

end GroupService

end ChatServer.Service
