import ChatServer.Codec.JsonCodec
import ChatServer.Db.Records
import ChatServer.Json.Text

/-!
# Response payloads

The `fill…` functions of `JsonCodec`: the fields of `data` in a response.
-/

namespace ChatServer.Codec

open Base Json Db

/-- `resp.data[key] = value`, for a list of keys. -/
def Response.assign (resp : Response) (fields : List (Bytes × Json)) : Response :=
  { resp with data := fields.foldl (fun data kv => Fields.set data kv.1 kv.2) resp.data }

theorem Response.Clean.assign {resp : Response} (h : resp.Clean) {fields : Fields}
    (hf : CleanFields fields) : (resp.assign fields).Clean :=
  ⟨h.msgType, h.message, hf.foldl_set h.data⟩

theorem Response.Clean.toJson {resp : Response} (h : resp.Clean) : Json.Clean resp.toJson := by
  have hok := (encodeResponse_isOk resp).mpr h
  rw [encodeResponse] at hok
  exact (dump_isOk _).mp hok

theorem encodeResponse_eq_text {resp : Response} (h : resp.Clean) :
    encodeResponse resp = .ok (text resp.toJson) := by
  rw [encodeResponse]
  exact dump_eq_text h.toJson

/-! ## Payloads -/

structure LoginResponseData where
  userId : UserId
  nickname : Bytes
  token : Bytes

structure SendMessageAckData where
  messageId : Bytes
  conversationId : Bytes
  sequence : Int
  toUserId : UserId
  status : Int
  createdAt : Timestamp

structure MessagePushData where
  messageId : Bytes
  conversationId : Bytes
  sequence : Int
  fromUserId : UserId
  fromUsername : Bytes
  toUserId : UserId
  content : Bytes
  createdAt : Timestamp
  serverTime : Timestamp

structure OfflineMessage where
  messageId : Bytes
  conversationId : Bytes
  sequence : Int
  fromUserId : UserId
  toUserId : UserId
  content : Bytes
  createdAt : Timestamp
  status : Int
  deriving DecidableEq, Repr

structure GroupMessageDelivery where
  messageId : Bytes
  groupId : Bytes
  conversationId : Bytes
  sequence : Int
  toUserId : UserId
  targetConnId : ConnId
  status : Int
  createdAt : Timestamp
  deriving DecidableEq, Repr

/-! ## Filling -/

def fillRegisterResponse (resp : Response) (userId : UserId) : Response :=
  resp.assign [(str "user_id", .numberInteger userId)]

def fillLoginResponse (resp : Response) (data : LoginResponseData) : Response :=
  resp.assign
    [(str "user_id", .numberInteger data.userId), (str "nickname", .string data.nickname),
      (str "token", .string data.token)]

def fillHeartbeatResponse (resp : Response) (serverTime : Timestamp) : Response :=
  resp.assign [(str "server_time", .numberInteger serverTime)]

def fillSendMessageAck (resp : Response) (data : SendMessageAckData) : Response :=
  resp.assign
    [(str "message_id", .string data.messageId),
      (str "conversation_id", .string data.conversationId),
      (str "sequence", .numberInteger data.sequence),
      (str "to_user_id", .numberInteger data.toUserId),
      (str "status", .numberInteger data.status),
      (str "created_at", .numberInteger data.createdAt)]

def fillMessagePush (resp : Response) (data : MessagePushData) : Response :=
  resp.assign
    [(str "message_id", .string data.messageId),
      (str "conversation_id", .string data.conversationId),
      (str "sequence", .numberInteger data.sequence),
      (str "from_user_id", .numberInteger data.fromUserId),
      (str "from_username", .string data.fromUsername),
      (str "to_user_id", .numberInteger data.toUserId),
      (str "content", .string data.content),
      (str "created_at", .numberInteger data.createdAt),
      (str "server_time", .numberInteger data.serverTime)]

def OfflineMessage.toJson (m : OfflineMessage) : Json :=
  .object (Fields.of
    [(str "message_id", .string m.messageId), (str "conversation_id", .string m.conversationId),
      (str "sequence", .numberInteger m.sequence), (str "from_user_id", .numberInteger m.fromUserId),
      (str "to_user_id", .numberInteger m.toUserId), (str "content", .string m.content),
      (str "created_at", .numberInteger m.createdAt), (str "status", .numberInteger m.status)])

def fillPullOfflineMessagesResponse (resp : Response) (messages : List OfflineMessage)
    (hasMore : Bool) : Response :=
  resp.assign
    [(str "messages", .array (messages.map OfflineMessage.toJson)),
      (str "has_more", .boolean hasMore)]

def fillMessageStateUpdateResponse (resp : Response) (messageIds : List Bytes)
    (affectedRows : Int) : Response :=
  resp.assign
    [(str "message_ids", .array (messageIds.map .string)),
      (str "affected_rows", .numberInteger affectedRows)]

/-- `fillFriendshipActionResponse`; empty timestamps are left out. -/
def fillFriendshipActionResponse (resp : Response) (friendship : FriendshipRecord)
    (friendUserId : UserId) : Response :=
  let resp := resp.assign
    [(str "requester_id", .numberInteger friendship.requesterId),
      (str "addressee_id", .numberInteger friendship.addresseeId),
      (str "friend_user_id", .numberInteger friendUserId),
      (str "status", .string friendship.status.toProtocol)]
  let resp :=
    if friendship.createdAt.isEmpty then resp
    else resp.assign [(str "created_at", .string friendship.createdAt)]
  if friendship.updatedAt.isEmpty then resp
  else resp.assign [(str "updated_at", .string friendship.updatedAt)]

def fillDeleteFriendResponse (resp : Response) (friendUserId : UserId) (deleted : Bool) : Response :=
  resp.assign [(str "friend_user_id", .numberInteger friendUserId), (str "deleted", .boolean deleted)]

def friendToJson (f : FriendshipListItem) : Json :=
  .object (Fields.of
    [(str "user_id", .numberInteger f.userId), (str "username", .string f.username),
      (str "nickname", .string f.nickname), (str "status", .string f.status.toProtocol),
      (str "direction", .string f.direction), (str "created_at", .string f.createdAt),
      (str "updated_at", .string f.updatedAt)])

def fillListFriendsResponse (resp : Response) (friends : List FriendshipListItem) : Response :=
  resp.assign [(str "friends", .array (friends.map friendToJson))]

def fillCreateGroupResponse (resp : Response) (group : GroupRecord) (memberIds : List UserId) :
    Response :=
  resp.assign
    [(str "group_id", .string group.id), (str "name", .string group.name),
      (str "owner_id", .numberInteger group.ownerId),
      (str "conversation_id", .string group.conversationId),
      (str "member_ids", .array (memberIds.map .numberInteger))]

def fillAddGroupMemberResponse (resp : Response) (member : GroupMemberRecord) : Response :=
  resp.assign
    [(str "group_id", .string member.groupId), (str "user_id", .numberInteger member.userId),
      (str "role", .string member.role)]

def GroupMessageDelivery.toJson (m : GroupMessageDelivery) : Json :=
  .object (Fields.of
    [(str "message_id", .string m.messageId), (str "group_id", .string m.groupId),
      (str "conversation_id", .string m.conversationId), (str "sequence", .numberInteger m.sequence),
      (str "to_user_id", .numberInteger m.toUserId), (str "status", .numberInteger m.status),
      (str "created_at", .numberInteger m.createdAt)])

def fillSendGroupMessageResponse (resp : Response) (groupId conversationId : Bytes)
    (messages : List GroupMessageDelivery) : Response :=
  resp.assign
    [(str "group_id", .string groupId), (str "conversation_id", .string conversationId),
      (str "messages", .array (messages.map GroupMessageDelivery.toJson))]

end ChatServer.Codec
