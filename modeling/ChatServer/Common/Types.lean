import Mathlib.Algebra.Group.Int.Defs
import Mathlib.Algebra.GroupWithZero.Nat
import Mathlib.Data.List.Basic

/-!
# Basic types

`std::string` is a byte string throughout: the protocol, the session store
and the repositories all pass raw bytes around and several checks look at
single bytes. Literals of the source are ASCII and enter through `str`.
-/

namespace ChatServer

/-- A `std::string`. -/
abbrev Bytes := List UInt8

instance : LawfulBEq Bytes := List.instLawfulBEq

/-- An ASCII literal of the source: seven bits of each character. -/
def str (s : String) : Bytes := s.toList.map fun c => UInt8.ofNat (c.toNat % 128)

/-- `chat::ConnectionId` (`uint64_t`), handed out by a counter starting at 1. -/
abbrev ConnId := Nat

/-- `chat::UserId` (`int64_t`). -/
abbrev UserId := Int

/-- `chat::Timestamp` (`int64_t`, Unix seconds). -/
abbrev Timestamp := Int

/-- A value of `int64_t`. -/
def IsInt64 (i : Int) : Prop := -2 ^ 63 ≤ i ∧ i < 2 ^ 63

theorem isInt64_zero : IsInt64 0 := by
  constructor <;> omega

/-- `std::to_string` of a natural number. -/
def natText (n : Nat) : Bytes := (Nat.toDigits 10 n).map fun c => UInt8.ofNat c.toNat

/-- `std::to_string` of a signed integer. -/
def intText : Int → Bytes
  | .ofNat n => natText n
  | .negSucc n => 45 :: natText (n + 1)

/-- `chat::ErrorCode`. -/
inductive ErrorCode where
  | ok
  | invalidParam
  | invalidJson
  | invalidPacket
  | unknownMessageType
  | userAlreadyExists
  | userNotFound
  | wrongPassword
  | invalidCredentials
  | userAlreadyOnline
  | dbInitFailed
  | dbQueryFailed
  | dbInsertFailed
  | messageTooLong
  | userNotOnline
  | cannotSendToSelf
  | notLoggedIn
  | idempotencyConflict
  | rateLimited
  | friendRequestAlreadyExists
  | friendshipAlreadyExists
  | friendRequestNotFound
  | friendshipNotFound
  | friendshipBlocked
  | groupNotFound
  | groupMemberAlreadyExists
  | permissionDenied
  | internalError
  deriving DecidableEq, Repr

/-- `chat::ConnectionSession`: the login state of one connection. -/
structure ConnectionSession where
  authenticated : Bool := false
  userId : UserId := 0
  username : Bytes := []
  token : Bytes := []
  deriving DecidableEq, Repr

end ChatServer
