import ChatServer.Base.HashStore
import ChatServer.Common.Text

/-!
# `RedisSessionStore`

Tokens and presence in Redis: the four Lua scripts and the methods that call
them, as functions on the hashes (`Base.HashStore`). A script runs atomically
at one moment `now`. Every text is built as the source builds it: keys by
concatenation, numbers by `std::to_string`; the scripts rebuild keys from the
values they read.
-/

namespace ChatServer.Redis

open Base

/-- The field names the scripts use. -/
inductive Field where
  | userId
  | username
  | issuedAt
  | serverId
  | connectionId
  | token
  deriving DecidableEq, Repr

/-- The part of the key space the session store owns. -/
abbrev Hashes := HashStore Bytes Field Bytes

/-- The fields of `chat::RedisConfig` the session store reads. -/
structure RedisConfig where
  keyPrefix : Bytes
  serverId : Bytes
  sessionTtlSeconds : Nat
  presenceTtlSeconds : Nat
  deriving DecidableEq, Repr

/-! ## Keys -/

def tokenKey (p token : Bytes) : Bytes := p ++ str ":session:token:" ++ token

def userPresenceKey (p : Bytes) (user : UserId) : Bytes := p ++ str ":presence:user:" ++ intText user

def userSessionKey (p : Bytes) (user : UserId) : Bytes := p ++ str ":session:user:" ++ intText user

def connectionPresenceKey (p server : Bytes) (conn : ConnId) : Bytes :=
  p ++ str ":presence:conn:" ++ server ++ str ":" ++ natText conn

/-! ## Scripts -/

section

variable (s : Hashes) (now : Nat)

/-- `kBindScript` with `KEYS[1..4]` and `ARGV[1..9]`. -/
def bindScript (k1 k2 k3 k4 prefix1 server conn user username issuedAt : Bytes) (sessionTtl : Nat)
    (token : Bytes) (presenceTtl : Nat) : Hashes :=
  let oldServer := s.hget k2 .serverId
  let oldConn := s.hget k2 .connectionId
  let s := match s.hget k4 .token with
    | some oldPresenceToken =>
      if oldPresenceToken ≠ token then
        s.del (prefix1 ++ str ":session:token:" ++ oldPresenceToken)
      else s
    | none => s
  let s := match oldServer, oldConn with
    | some oldServer, some oldConn =>
      s.del (prefix1 ++ str ":presence:conn:" ++ oldServer ++ str ":" ++ oldConn)
    | _, _ => s
  let s := match s.hget k3 .userId, s.hget k3 .token with
    | some oldUser, some oldToken =>
      let oldUserKey := prefix1 ++ str ":presence:user:" ++ oldUser
      if s.hget oldUserKey .serverId = some server ∧
          s.hget oldUserKey .connectionId = some conn ∧
          s.hget oldUserKey .token = some oldToken then
        s.del oldUserKey
      else s
    | _, _ => s
  let s := (s.hset k1 [(.userId, user), (.username, username), (.issuedAt, issuedAt)]).expire k1
    now sessionTtl
  let s := (s.hset k2 [(.serverId, server), (.connectionId, conn), (.token, token)]).expire k2
    now presenceTtl
  let s := (s.hset k3 [(.userId, user), (.token, token)]).expire k3 now presenceTtl
  (s.hset k4 [(.token, token)]).expire k4 now sessionTtl

/-- `kRefreshScript`. -/
def refreshScript (k1 k2 server conn token user : Bytes) (presenceTtl : Nat) : Hashes :=
  if s.hget k1 .serverId ≠ some server ∨ s.hget k1 .connectionId ≠ some conn ∨
      s.hget k1 .token ≠ some token ∨ s.hget k2 .userId ≠ some user ∨
      s.hget k2 .token ≠ some token then
    s
  else (s.expire k1 now presenceTtl).expire k2 now presenceTtl

/-- The end of `kClearScript` and `kRevokeScript`: drop the connection's index,
and the user's presence if it is still this connection's. -/
def dropPresence (k1 k2 server conn token : Bytes) : Hashes :=
  let s := s.del k2
  if s.hget k1 .serverId = some server ∧ s.hget k1 .connectionId = some conn ∧
      s.hget k1 .token = some token then
    s.del k1
  else s

/-- `kClearScript`. -/
def clearScript (k1 k2 server conn token : Bytes) : Hashes := dropPresence s k1 k2 server conn token

/-- `kRevokeScript`. -/
def revokeScript (k1 k2 k3 k4 server conn token : Bytes) : Hashes :=
  let s := s.del k3
  let s := if s.hget k4 .token = some token then s.del k4 else s
  dropPresence s k1 k2 server conn token

end

/-! ## Methods -/

/-- `Validator::Token`: 64 hexadecimal characters. -/
def validToken (token : Bytes) : Bool :=
  token.length = 64 ∧ token.all fun b =>
    (48 ≤ b ∧ b ≤ 57) ∨ (65 ≤ b ∧ b ≤ 70) ∨ (97 ≤ b ∧ b ≤ 102)

/-- `RedisSessionStore::IsValidSession`. -/
def isValidSession (session : ConnectionSession) : Bool :=
  session.authenticated ∧ 0 < session.userId ∧ session.username ≠ [] ∧ validToken session.token

/-- The commands the methods send; each one's guard is part of it, a call that
fails the guard sends nothing. -/
inductive Command where
  | bind (conn : ConnId) (session : ConnectionSession) (issuedAt : Timestamp)
  | refresh (conn : ConnId) (session : ConnectionSession)
  | clearPresence (conn : ConnId) (session : ConnectionSession)
  | revokeSession (conn : ConnId) (session : ConnectionSession)
  | revokeToken (token : Bytes)
  deriving DecidableEq

/-- A method call of the server with configuration `cfg`, carried out at `now`. -/
def Command.run (cfg : RedisConfig) (now : Nat) (s : Hashes) : Command → Hashes
  | .bind conn session issuedAt =>
    if conn = 0 ∨ issuedAt < 0 ∨ isValidSession session = false then s
    else
      bindScript s now (tokenKey cfg.keyPrefix session.token)
        (userPresenceKey cfg.keyPrefix session.userId)
        (connectionPresenceKey cfg.keyPrefix cfg.serverId conn)
        (userSessionKey cfg.keyPrefix session.userId) cfg.keyPrefix cfg.serverId (natText conn)
        (intText session.userId) session.username (intText issuedAt) cfg.sessionTtlSeconds
        session.token cfg.presenceTtlSeconds
  | .refresh conn session =>
    if conn = 0 ∨ isValidSession session = false then s
    else
      refreshScript s now (userPresenceKey cfg.keyPrefix session.userId)
        (connectionPresenceKey cfg.keyPrefix cfg.serverId conn) cfg.serverId (natText conn)
        session.token (intText session.userId) cfg.presenceTtlSeconds
  | .clearPresence conn session =>
    if conn = 0 ∨ isValidSession session = false then s
    else
      clearScript s (userPresenceKey cfg.keyPrefix session.userId)
        (connectionPresenceKey cfg.keyPrefix cfg.serverId conn) cfg.serverId (natText conn)
        session.token
  | .revokeSession conn session =>
    if conn = 0 ∨ isValidSession session = false then s
    else
      revokeScript s (userPresenceKey cfg.keyPrefix session.userId)
        (connectionPresenceKey cfg.keyPrefix cfg.serverId conn)
        (tokenKey cfg.keyPrefix session.token) (userSessionKey cfg.keyPrefix session.userId)
        cfg.serverId (natText conn) session.token
  | .revokeToken token => if validToken token = false then s else s.del (tokenKey cfg.keyPrefix token)

/-! ## Reading -/

/-- The digits `strtoll` reads, and whether it stopped at the end. -/
def readDigits : Nat → Bytes → Option Nat
  | acc, [] => some acc
  | acc, b :: rest => if 48 ≤ b ∧ b ≤ 57 then readDigits (acc * 10 + (b.toNat - 48)) rest else none

/-- `ParseInteger`: `strtoll` in base 10 up to the first NUL, the whole text. -/
def parseInteger (value : Bytes) : Option Int :=
  let text := (value.takeWhile (· ≠ 0)).dropWhile fun b => b = 32 ∨ (9 ≤ b ∧ b ≤ 13)
  let (negative, digits) := match text with
    | 45 :: rest => (true, rest)
    | 43 :: rest => (false, rest)
    | _ => (false, text)
  match digits with
  | [] => none
  | _ => (readDigits 0 digits).map fun n =>
    if negative then max (-2 ^ 63) (-(n : Int)) else min (2 ^ 63 - 1) n

/-- `chat::StoredSessionToken`. -/
structure StoredSessionToken where
  userId : UserId
  username : Bytes
  issuedAt : Timestamp
  deriving DecidableEq, Repr

/-- What `HMGET` on a token key gives: nothing, or three texts that may not parse. -/
def readToken (cfg : RedisConfig) (s : Hashes) (token : Bytes) :
    Option (Option StoredSessionToken) := do
  let key := tokenKey cfg.keyPrefix token
  let userId ← s.hget key .userId
  let username ← s.hget key .username
  let issuedAt ← s.hget key .issuedAt
  some do
    let userId ← parseInteger userId
    let issuedAt ← parseInteger issuedAt
    if userId ≤ 0 ∨ username = [] ∨ issuedAt < 0 then none
    else some ⟨userId, username, issuedAt⟩

/-- `RedisSessionStore::GetToken`: the stored session, and the hashes without a
token that did not parse. -/
def getToken (cfg : RedisConfig) (s : Hashes) (token : Bytes) :
    Option StoredSessionToken × Hashes :=
  if validToken token = false then (none, s)
  else
    match readToken cfg s token with
    | none => (none, s)
    | some none => (none, s.del (tokenKey cfg.keyPrefix token))
    | some (some stored) => (some stored, s)

end ChatServer.Redis
