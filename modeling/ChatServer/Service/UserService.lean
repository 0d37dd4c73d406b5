import ChatServer.Redis.SessionStore

/-!
# `SessionManager` and the session part of `UserService`

The sessions of the connections of one server process, and what `UserService`
does with them and with the shared session store: `bindSession`,
`logoutSession` and `clearSession` on the I/O thread, `resumeSession` and
`refreshPresence` in a worker. Each gives the command it sends to Redis, if
any; whether the command takes effect is decided elsewhere.
-/

namespace ChatServer.Service

open Redis

/-- `chat::SessionManager`. -/
structure SessionManager where
  connectionToSession : ConnId → Option ConnectionSession := fun _ => none
  userToConnections : UserId → Option (List ConnId) := fun _ => none

namespace SessionManager

/-- `user_to_connections_[user]`: an empty list where there is no entry. -/
def connectionsOf (m : SessionManager) (user : UserId) : List ConnId :=
  (m.userToConnections user).getD []

/-- Take a connection off its user's list; an empty list is erased. -/
def detach (m : SessionManager) (conn : ConnId) : SessionManager :=
  match m.connectionToSession conn with
  | none => m
  | some old =>
    let connections := (m.connectionsOf old.userId).filter (· ≠ conn)
    { m with
      userToConnections := Function.update m.userToConnections old.userId
        (if connections = [] then none else some connections) }

/-- `SessionManager::BindSession`; `none` when the session is refused. -/
def bindSession (m : SessionManager) (conn : ConnId) (session : ConnectionSession) :
    Option SessionManager :=
  if session.authenticated = false ∨ session.userId ≤ 0 ∨ session.username = [] then none
  else
    let m := m.detach conn
    let connections := m.connectionsOf session.userId
    some
      { connectionToSession := Function.update m.connectionToSession conn (some session)
        userToConnections := Function.update m.userToConnections session.userId
          (some (if conn ∈ connections then connections else connections ++ [conn])) }

/-- `SessionManager::ClearSession`. -/
def clearSession (m : SessionManager) (conn : ConnId) : SessionManager :=
  { m.detach conn with
    connectionToSession := Function.update m.connectionToSession conn none }

/-- `SessionManager::GetConnectionId`. -/
def getConnectionId (m : SessionManager) (user : UserId) : Option ConnId :=
  match m.userToConnections user with
  | none => none
  | some connections => connections.getLast?

/-- `SessionManager::GetConnectionIds`. -/
def getConnectionIds (m : SessionManager) (user : UserId) : List ConnId :=
  match m.userToConnections user with
  | none => []
  | some connections => connections

/-- `SessionManager::GetSession`. -/
def getSession (m : SessionManager) (conn : ConnId) : Option ConnectionSession :=
  m.connectionToSession conn

variable {m m' : SessionManager} {conn : ConnId} {session : ConnectionSession}

theorem detach_connectionToSession (m : SessionManager) (conn : ConnId) :
    (m.detach conn).connectionToSession = m.connectionToSession := by
  unfold detach
  split <;> rfl

/-- What `BindSession` accepts, and the sessions afterwards. -/
theorem bindSession_some (h : m.bindSession conn session = some m') :
    (session.authenticated = true ∧ 0 < session.userId ∧ session.username ≠ []) ∧
      m'.getSession = Function.update m.getSession conn (some session) := by
  unfold bindSession at h
  split at h
  next => cases h
  next hvalid =>
    simp only [not_or, Bool.not_eq_false, Int.not_le] at hvalid
    obtain rfl := Option.some.inj h
    refine ⟨hvalid, ?_⟩
    show Function.update (m.detach conn).connectionToSession conn (some session) = _
    rw [detach_connectionToSession]
    rfl

theorem clearSession_getSession (m : SessionManager) (conn : ConnId) :
    (m.clearSession conn).getSession = Function.update m.getSession conn none := rfl

/-- The states of a session manager: no other function changes it. -/
inductive Built : SessionManager → Prop
  | new : Built {}
  | bind {m m' : SessionManager} {conn : ConnId} {session : ConnectionSession} :
      Built m → m.bindSession conn session = some m' → Built m'
  | clear {m : SessionManager} (conn : ConnId) : Built m → Built (m.clearSession conn)

/-- A session manager holds authenticated sessions only. -/
theorem Built.authenticated (h : m.Built) (hs : m.getSession conn = some session) :
    session.authenticated = true := by
  induction h with
  | new => cases hs
  | bind hm hbind ih =>
    obtain ⟨⟨hauth, -, -⟩, hsessions⟩ := bindSession_some hbind
    rw [hsessions, Function.update_apply] at hs
    split at hs
    · exact Option.some.inj hs ▸ hauth
    · exact ih hs
  | clear c hm ih =>
    rw [clearSession_getSession, Function.update_apply] at hs
    split at hs
    · cases hs
    · exact ih hs

end SessionManager

/-! ## The session functions of `UserService` -/

namespace UserService

/-- `bindSession`: a failing Redis does not undo the local binding. -/
def bindSession (m : SessionManager) (conn : ConnId) (session : ConnectionSession)
    (issuedAt : Timestamp) : SessionManager × Option Command :=
  match m.bindSession conn session with
  | none => (m, none)
  | some m => (m, some (.bind conn session issuedAt))

/-- `logoutSession`. -/
def logoutSession (m : SessionManager) (conn : ConnId) : SessionManager × Option Command :=
  match m.getSession conn with
  | none => (m, none)
  | some session => (m.clearSession conn, some (.revokeSession conn session))

/-- `clearSession`. -/
def clearSession (m : SessionManager) (conn : ConnId) : SessionManager × Option Command :=
  match m.getSession conn with
  | none => (m, none)
  | some session => (m.clearSession conn, some (.clearPresence conn session))

/-- `isConnectionBoundToUser`. -/
def isConnectionBoundToUser (m : SessionManager) (conn : ConnId) (user : UserId) : Bool :=
  (m.getSession conn).any fun session => session.authenticated && session.userId = user

/-- `refreshPresence`. -/
def refreshPresence (m : SessionManager) (conn : ConnId) : Option Command :=
  (m.getSession conn).map fun session => .refresh conn session

/-- `resumeSession`: the session to bind, if the token is live. -/
def resumeSession (cfg : RedisConfig) (s : Hashes) (token : Bytes) : Option ConnectionSession :=
  (getToken cfg s token).1.map fun stored => ⟨true, stored.userId, stored.username, token⟩

end UserService

end ChatServer.Service
