import ChatServer.Common.Hex
import ChatServer.Json.Value

/-!
# Identifiers the services make up

Conversation ids, message ids and the ids of groups. A message id is the time,
the process, the sender and a counter mixed into 64 bits, followed by 64 random
bits, both in hexadecimal.
-/

namespace ChatServer.Service

open Json

/-- `BuildConversationId`. -/
def buildConversationId (userA userB : UserId) : Bytes :=
  str "conv_" ++ intText (min userA userB) ++ str "_" ++ intText (max userA userB)

/-- `mixed_part` of `BuildMessageId`. -/
def mixedPart (now : Timestamp) (pid : Nat) (fromUserId : UserId) (seq : Nat) : Nat :=
  (toUInt64 now <<< 32) % 2 ^ 64 ^^^ (pid <<< 16) % 2 ^ 64 ^^^ toUInt64 fromUserId ^^^ seq % 2 ^ 64

/-- `BuildMessageId`; `seq` is the counter after its increment. -/
def buildMessageId (now : Timestamp) (pid : Nat) (fromUserId : UserId) (seq random : Nat) : Bytes :=
  str "msg_" ++ hexPad 16 (mixedPart now pid fromUserId seq) ++ hexPad 16 (random % 2 ^ 64)

/-- `mixed_part` of `BuildGroupMessageId`. -/
def groupMixedPart (now : Timestamp) (pid : Nat) (fromUserId toUserId : UserId) (seq : Nat) : Nat :=
  (toUInt64 now <<< 32) % 2 ^ 64 ^^^ (pid <<< 16) % 2 ^ 64 ^^^ toUInt64 fromUserId ^^^
    (toUInt64 toUserId <<< 8) % 2 ^ 64 ^^^ seq % 2 ^ 64

/-- `BuildGroupMessageId`. -/
def buildGroupMessageId (now : Timestamp) (pid : Nat) (fromUserId toUserId : UserId)
    (seq random : Nat) : Bytes :=
  str "gmsg_" ++ hexPad 16 (groupMixedPart now pid fromUserId toUserId seq) ++
    hexPad 16 (random % 2 ^ 64)

/-- `BuildGroupConversationId`. -/
def buildGroupConversationId (groupId : Bytes) : Bytes := str "gconv_" ++ groupId

/-- `BuildRecipientClientMessageId`. -/
def buildRecipientClientMessageId (hash : Bytes → Nat) (groupId clientMsgId : Bytes)
    (toUserId : UserId) : Bytes :=
  str "gcm_" ++ hexText (hash (groupId ++ str ":" ++ clientMsgId ++ str ":" ++ intText toUserId))

end ChatServer.Service
