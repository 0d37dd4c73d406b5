import ChatServer.Db.MessageRepository

/-!
# Records and results of the repositories

The values that pass between the services and the repositories, apart from
those of `createMessage`. The timestamps the database formats are texts.
-/

namespace ChatServer.Db

/-- `chat::UserRecord`, without the columns no service reads (`status` and the
timestamps). -/
structure UserRecord where
  id : UserId
  username : Bytes
  passwordHash : Bytes
  nickname : Bytes
  deriving DecidableEq, Repr

structure FindUserResult where
  status : RepositoryStatus
  user : Option UserRecord := none
  deriving DecidableEq, Repr

structure CreateUserResult where
  status : RepositoryStatus
  userId : UserId := 0
  deriving DecidableEq, Repr

/-- `ToProtocolMessageStatus`. -/
def MessageStatus.toProtocol : MessageStatus → Int
  | .stored => 0
  | .delivered => 1
  | .read => 2

structure FindMessageResult where
  status : RepositoryStatus
  message : Option MessageRecord := none
  deriving DecidableEq, Repr

structure ListOfflineMessagesResult where
  status : RepositoryStatus
  messages : List MessageRecord := []
  hasMore : Bool := false
  deriving DecidableEq, Repr

/-- `MarkDeliveredResult`, `MarkReadResult` and `DeleteFriendshipResult`. -/
structure UpdateResult where
  status : RepositoryStatus
  affectedRows : Int := 0
  deriving DecidableEq, Repr

inductive FriendshipStatus where
  | pending
  | accepted
  | blocked
  deriving DecidableEq, Repr

/-- `ToProtocolFriendshipStatus`. -/
def FriendshipStatus.toProtocol : FriendshipStatus → Bytes
  | .pending => str "pending"
  | .accepted => str "accepted"
  | .blocked => str "blocked"

structure FriendshipRecord where
  requesterId : UserId
  addresseeId : UserId
  status : FriendshipStatus
  createdAt : Bytes
  updatedAt : Bytes
  deriving DecidableEq, Repr

structure FriendshipListItem where
  userId : UserId
  username : Bytes
  nickname : Bytes
  status : FriendshipStatus
  direction : Bytes
  createdAt : Bytes
  updatedAt : Bytes
  deriving DecidableEq, Repr

/-- `FindFriendshipResult`, `CreateFriendshipResult` and
`UpdateFriendshipResult`. -/
structure FriendshipResult where
  status : RepositoryStatus
  friendship : Option FriendshipRecord := none
  deriving DecidableEq, Repr

structure ListFriendshipsResult where
  status : RepositoryStatus
  friends : List FriendshipListItem := []
  deriving DecidableEq, Repr

structure GroupRecord where
  id : Bytes
  name : Bytes
  ownerId : UserId
  conversationId : Bytes
  deriving DecidableEq, Repr

structure GroupMemberRecord where
  groupId : Bytes
  userId : UserId
  role : Bytes
  deriving DecidableEq, Repr

/-- `GroupRepositoryCreateResult` and `GroupRepositoryFindResult`. -/
structure GroupResult where
  status : RepositoryStatus
  group : Option GroupRecord := none
  deriving DecidableEq, Repr

structure AddMemberResult where
  status : RepositoryStatus
  member : Option GroupMemberRecord := none
  deriving DecidableEq, Repr

structure ListMembersResult where
  status : RepositoryStatus
  members : List GroupMemberRecord := []
  deriving DecidableEq, Repr

end ChatServer.Db
