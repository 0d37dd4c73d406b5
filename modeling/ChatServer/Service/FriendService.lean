import ChatServer.Service.ChatService

/-!
# `FriendService`

Friend requests: sending, accepting, deleting and listing them.
-/

namespace ChatServer.Service

open Base Db

structure FriendshipActionResult where
  code : ErrorCode := .ok
  message : Bytes := []
  friendship : Option FriendshipRecord := none
  friendUserId : UserId := 0
  deleted : Bool := false

structure ListFriendsResult where
  code : ErrorCode := .ok
  message : Bytes := []
  friends : List FriendshipListItem := []

namespace FriendService

/-- `MakeActionError`. -/
def makeActionError (code : ErrorCode) (message : String) : FriendshipActionResult :=
  { code, message := str message }

/-- `ValidateUserExists`. -/
def validateUserExists (userId : UserId) (missing queryFailed : String) :
    Action (Option FriendshipActionResult) := do
  let user ← Prog.perform (.findById userId)
  if user.status = .notFound ∨ (user.status = .ok ∧ user.user = none) then
    return some (makeActionError .userNotFound missing)
  if user.status ≠ .ok then
    return some (makeActionError (mapRepositoryError user.status) queryFailed)
  return none

/-- `ExistingFriendshipError`. -/
def existingFriendshipError (friendship : FriendshipRecord) : FriendshipActionResult :=
  match friendship.status with
  | .accepted => makeActionError .friendshipAlreadyExists "friendship already exists"
  | .blocked => makeActionError .friendshipBlocked "friendship is blocked"
  | .pending => makeActionError .friendRequestAlreadyExists "friend request already exists"

/-- `addFriend`. -/
def addFriend (conn : ConnId) (targetUserId : UserId) : Action FriendshipActionResult := do
  if targetUserId ≤ 0 then
    return makeActionError .invalidParam "target_user_id must be greater than 0"
  let some session ← getAuthenticatedSession conn
    | return makeActionError .notLoggedIn "User not logged in"
  if targetUserId = session.userId then
    return makeActionError .cannotSendToSelf "cannot add yourself as friend"
  if let some error ← validateUserExists targetUserId "target user not found"
      "query target user failed" then
    return error
  let existing ← Prog.perform (.findFriendship session.userId targetUserId)
  if let some friendship := existing.friendship.filter fun _ => existing.status = .ok then
    return existingFriendshipError friendship
  if existing.status ≠ .notFound then
    return makeActionError (mapRepositoryError existing.status) "query friendship failed"
  let created ← Prog.perform (.createFriendRequest session.userId targetUserId)
  if created.status = .duplicate then
    return makeActionError .friendRequestAlreadyExists "friend request already exists"
  let some friendship := created.friendship.filter fun _ => created.status = .ok
    | return makeActionError (mapRepositoryError created.status) "create friend request failed"
  return { code := .ok, message := str "friend request sent", friendship := some friendship,
           friendUserId := targetUserId }

/-- `acceptFriend`. -/
def acceptFriend (conn : ConnId) (requesterUserId : UserId) : Action FriendshipActionResult := do
  if requesterUserId ≤ 0 then
    return makeActionError .invalidParam "requester_user_id must be greater than 0"
  let some session ← getAuthenticatedSession conn
    | return makeActionError .notLoggedIn "User not logged in"
  if requesterUserId = session.userId then
    return makeActionError .cannotSendToSelf "cannot accept your own friend request"
  if let some error ← validateUserExists requesterUserId "requester user not found"
      "query requester user failed" then
    return error
  let existing ← Prog.perform (.findFriendship requesterUserId session.userId)
  if existing.status = .notFound then
    return makeActionError .friendRequestNotFound "friend request not found"
  if existing.status ≠ .ok then
    return makeActionError (mapRepositoryError existing.status) "query friendship failed"
  let some friendship := existing.friendship
    | return makeActionError .friendRequestNotFound "friend request not found"
  if friendship.status = .accepted then
    return makeActionError .friendshipAlreadyExists "friendship already exists"
  if friendship.status = .blocked then
    return makeActionError .friendshipBlocked "friendship is blocked"
  if friendship.requesterId ≠ requesterUserId ∨ friendship.addresseeId ≠ session.userId then
    return makeActionError .friendRequestNotFound "friend request not found"
  let accepted ← Prog.perform (.acceptFriendRequest requesterUserId session.userId)
  if accepted.status = .notFound then
    return makeActionError .friendRequestNotFound "friend request not found"
  if accepted.status ≠ .ok then
    return makeActionError (mapRepositoryError accepted.status) "accept friend request failed"
  let some friendship := accepted.friendship
    | return makeActionError .friendRequestNotFound "friend request not found"
  return { code := .ok, message := str "friend request accepted", friendship := some friendship,
           friendUserId := requesterUserId }

/-- `deleteFriend`. -/
def deleteFriend (conn : ConnId) (friendUserId : UserId) : Action FriendshipActionResult := do
  if friendUserId ≤ 0 then
    return makeActionError .invalidParam "friend_user_id must be greater than 0"
  let some session ← getAuthenticatedSession conn
    | return makeActionError .notLoggedIn "User not logged in"
  if friendUserId = session.userId then
    return makeActionError .cannotSendToSelf "cannot delete yourself as friend"
  let deleted ← Prog.perform (.deleteFriendship session.userId friendUserId)
  if deleted.status = .notFound then
    return makeActionError .friendshipNotFound "friendship not found"
  if deleted.status ≠ .ok then
    return makeActionError (mapRepositoryError deleted.status) "delete friendship failed"
  if deleted.affectedRows = 0 then
    return makeActionError .friendshipNotFound "friendship not found"
  return { code := .ok, message := str "friendship deleted", friendUserId, deleted := true }

/-- `listFriends`. -/
def listFriends (conn : ConnId) : Action ListFriendsResult := do
  let some session ← getAuthenticatedSession conn
    | return { code := .notLoggedIn, message := notLoggedIn }
  let list ← Prog.perform (.listFriendships session.userId)
  if list.status ≠ .ok then
    return { code := mapRepositoryError list.status, message := str "list friends failed" }
  return { code := .ok, message := str "Success", friends := list.friends }

end FriendService

end ChatServer.Service
