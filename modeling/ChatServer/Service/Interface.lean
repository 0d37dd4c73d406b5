import ChatServer.Base.Prog
import ChatServer.Db.Records
import ChatServer.Json.Value
import ChatServer.Redis.SessionStore
import ChatServer.Service.SendStore

/-!
# What the services depend on

The interfaces the services are constructed with: the repositories, the
session manager, the session store, the rate limiter, the cache of sent
messages, the stream to other servers, the password hasher, the clock and the
sources of randomness. `Call` lists their functions; a service is a program over
them.
-/

namespace ChatServer.Service

open Base Db Redis

structure RateLimitResult where
  allowed : Bool := true
  retryAfterSeconds : Nat := 0
  deriving DecidableEq, Repr

structure StoredUserPresence where
  serverId : Bytes
  connectionId : ConnId
  token : Bytes
  deriving DecidableEq, Repr

structure RemotePushEvent where
  eventId : Bytes
  messageId : Bytes
  fromUserId : UserId
  toUserId : UserId
  targetConnectionId : ConnId
  payload : Bytes
  deriving DecidableEq, Repr

inductive RemoteDeliveryOutcome where
  | delivered
  | invalidTarget
  | retry
  deriving DecidableEq, Repr

/-- The functions of the interfaces, with the type of their answers. -/
inductive Call : Type → Type 1
  -- IUserRepository
  | findByUsername (username : Bytes) : Call FindUserResult
  | findById (userId : UserId) : Call FindUserResult
  | createUser (username passwordHash nickname : Bytes) : Call CreateUserResult
  | updatePasswordHash (userId : UserId) (passwordHash : Bytes) : Call RepositoryStatus
  -- IMessageRepository
  | createMessage (message : MessageRecord) : Call CreateMessageResult
  | findMessageByClientMsgId (fromUserId : UserId) (clientMsgId : Bytes) : Call FindMessageResult
  | listOfflineMessages (toUserId : UserId) (limit : Int) (cursor : Bytes) :
      Call ListOfflineMessagesResult
  | markDelivered (toUserId : UserId) (messageIds : List Bytes) : Call UpdateResult
  | markRead (toUserId : UserId) (messageIds : List Bytes) : Call UpdateResult
  -- IFriendRepository
  | findFriendship (userA userB : UserId) : Call FriendshipResult
  | createFriendRequest (requesterId addresseeId : UserId) : Call FriendshipResult
  | acceptFriendRequest (requesterId addresseeId : UserId) : Call FriendshipResult
  | deleteFriendship (userA userB : UserId) : Call UpdateResult
  | listFriendships (userId : UserId) : Call ListFriendshipsResult
  -- IGroupRepository
  | createGroup (group : GroupRecord) (initialMembers : List GroupMemberRecord) : Call GroupResult
  | findGroup (groupId : Bytes) : Call GroupResult
  | addMember (member : GroupMemberRecord) : Call AddMemberResult
  | listMembers (groupId : Bytes) : Call ListMembersResult
  -- ISessionManager
  | getSession (connId : ConnId) : Call (Option ConnectionSession)
  | getConnectionId (userId : UserId) : Call (Option ConnId)
  | getConnectionIds (userId : UserId) : Call (List ConnId)
  -- IGlobalSessionStore
  | refresh (connId : ConnId) (session : ConnectionSession) : Call Bool
  | getToken (token : Bytes) : Call (Option StoredSessionToken)
  | getPresence (userId : UserId) : Call (Option StoredUserPresence)
  -- IRateLimiter, IMessageDedupCache, IRemotePushPublisher
  | allow (type identity : Bytes) (limit windowSeconds : Nat) : Call RateLimitResult
  | lookup (fromUserId : UserId) (clientMsgId : Bytes) : Call (Option Bytes)
  | save (fromUserId : UserId) (clientMsgId messageId : Bytes) : Call Unit
  | remove (fromUserId : UserId) (clientMsgId : Bytes) : Call Unit
  | publish (targetServerId : Bytes) (event : RemotePushEvent) : Call Bool
  -- IPasswordHasher
  | hash (password : Bytes) : Call (Option Bytes)
  | verify (password passwordHash : Bytes) : Call Bool
  | needsRehash (passwordHash : Bytes) : Call Bool
  -- the clock, `getrandom` (which may fail), and what message ids are made of
  | now : Call Timestamp
  | getRandom (count : Nat) : Call (Option Bytes)
  | nextRandom : Call Nat
  | nextMessageSeq : Call Nat
  | nextGroupMessageSeq : Call Nat

/-- A function of a service; only the JSON library throws. -/
abbrev Action (α : Type) := Prog Call JsonException α

/-- How the services are wired: the pointers that may be null, the
configuration, the process id and `std::hash` of a string. -/
structure Wiring where
  sessionStore : Bool
  rateLimiter : Bool
  dedupCache : Bool
  remotePushPublisher : Bool
  friendService : Bool
  groupService : Bool
  serverId : Bytes
  registerRateLimit : Nat
  registerRateWindowSeconds : Nat
  loginRateLimit : Nat
  loginRateWindowSeconds : Nat
  sendRateLimit : Nat
  sendRateWindowSeconds : Nat
  pid : Nat
  stringHash : Bytes → Nat

/-- `GetAuthenticatedSession`. -/
def getAuthenticatedSession (connId : ConnId) : Action (Option ConnectionSession) := do
  let session ← Prog.perform (.getSession connId)
  return session.filter (·.authenticated)

end ChatServer.Service
