import ChatServer.Codec.Requests
import ChatServer.Common.Hex
import ChatServer.Common.Validator
import ChatServer.Service.Interface

/-!
# `UserService` as the handler calls it

Registration, login, `resume_session`, the token check of protected requests,
logout and `whoami`: the functions of `UserService` that run in a worker. The
session functions of the I/O thread are in `Service/UserService.lean`.
-/

namespace ChatServer.Service

open Base Db Redis Codec

structure RegisterResult where
  code : ErrorCode := .ok
  message : Bytes := []
  userId : UserId := 0
  retryAfterSeconds : Nat := 0

structure LoginResult where
  code : ErrorCode := .ok
  message : Bytes := []
  userId : UserId := 0
  nickname : Bytes := []
  token : Bytes := []
  session : ConnectionSession := {}
  retryAfterSeconds : Nat := 0

/-- `ResumeSessionResult` and `WhoAmIResult`. -/
structure SessionResult where
  code : ErrorCode := .ok
  message : Bytes := []
  session : ConnectionSession := {}

structure LogoutResult where
  code : ErrorCode := .ok
  message : Bytes := []

namespace Account

/-- The message of the first check that fails. -/
def firstFailure (checks : List (Option String)) : Option Bytes :=
  (checks.findSome? id).map str

def validateRegisterRequest (req : RegisterRequest) : Option Bytes :=
  firstFailure [Validator.username req.username, Validator.registerPassword req.password,
    Validator.nickname req.nickname]

def validateLoginRequest (req : LoginRequest) : Option Bytes :=
  firstFailure [Validator.username req.username, Validator.loginPassword req.password]

/-- Ask the rate limiter, if there is one and the caller is known; `some` is the
time to wait of a caller over the limit. -/
def overLimit (w : Wiring) (type identity : Bytes) (limit windowSeconds : Nat) :
    Action (Option Nat) := do
  if !w.rateLimiter || identity.isEmpty then
    return none
  let result ← Prog.perform (.allow type identity limit windowSeconds)
  return if result.allowed then none else some result.retryAfterSeconds

/-- `registerUser`. -/
def registerUser (w : Wiring) (req : RegisterRequest) (identity : Bytes) :
    Action RegisterResult := do
  if let some err := validateRegisterRequest req then
    return { code := .invalidParam, message := err }
  if let some retry ← overLimit w (str "register") identity w.registerRateLimit
      w.registerRateWindowSeconds then
    return { code := .rateLimited, message := str "register rate limit exceeded",
             retryAfterSeconds := retry }
  let found ← Prog.perform (.findByUsername req.username)
  if found.status = .ok then
    return { code := .userAlreadyExists, message := str "username already exists" }
  if found.status = .queryFailed ∨ found.status = .connectionUnavailable ∨
      found.status = .borrowTimeout then
    return { code := .dbQueryFailed, message := str "query user failed" }
  if found.status ≠ .notFound then
    return { code := .internalError, message := str "unexpected repository status" }
  let some passwordHash ← Prog.perform (.hash req.password)
    | return { code := .internalError, message := str "password hashing failed" }
  let created ← Prog.perform (.createUser req.username passwordHash req.nickname)
  if created.status = .duplicate then
    return { code := .userAlreadyExists, message := str "username already exists" }
  if created.status = .insertFailed ∨ created.status = .connectionUnavailable ∨
      created.status = .borrowTimeout then
    return { code := .dbInsertFailed, message := str "create user failed" }
  if created.status ≠ .ok then
    return { code := .internalError, message := str "unexpected repository status" }
  return { code := .ok, message := str "register success", userId := created.userId }

/-- `generateToken` and `RandomHex`: empty when `getrandom` fails. -/
def randomHex (count : Nat) : Action Bytes := do
  let bytes ← Prog.perform (.getRandom count)
  return (bytes.getD []).flatMap fun b => hexPad 2 b.toNat

/-- Upgrade the stored hash of a password that was just verified; `false` when
that fails. -/
def upgradeHash (user : UserRecord) (password : Bytes) : Action Bool := do
  if !(← Prog.perform (.needsRehash user.passwordHash)) then
    return true
  let some upgraded ← Prog.perform (.hash password) | return false
  let status ← Prog.perform (.updatePasswordHash user.id upgraded)
  return status = .ok

/-- `login`. -/
def login (w : Wiring) (req : LoginRequest) (identity : Bytes) : Action LoginResult := do
  if let some err := validateLoginRequest req then
    return { code := .invalidParam, message := err }
  if let some retry ← overLimit w (str "login") identity w.loginRateLimit
      w.loginRateWindowSeconds then
    return { code := .rateLimited, message := str "login rate limit exceeded",
             retryAfterSeconds := retry }
  let found ← Prog.perform (.findByUsername req.username)
  if found.status = .queryFailed ∨ found.status = .connectionUnavailable ∨
      found.status = .borrowTimeout then
    return { code := .dbQueryFailed, message := str "query user failed" }
  if found.status = .notFound then
    return { code := .invalidCredentials, message := str "invalid username or password" }
  if found.status ≠ .ok then
    return { code := .internalError, message := str "unexpected repository result" }
  let some user := found.user
    | return { code := .internalError, message := str "unexpected repository result" }
  if !(← Prog.perform (.verify req.password user.passwordHash)) then
    return { code := .invalidCredentials, message := str "invalid username or password" }
  if !(← upgradeHash user req.password) then
    return { code := .internalError, message := str "credential upgrade failed" }
  let token ← randomHex 32
  if token.isEmpty then
    return { code := .internalError, message := str "generate token failed" }
  return { code := .ok, message := str "login success", userId := user.id,
           nickname := user.nickname, token,
           session := ⟨true, user.id, user.username, token⟩ }

/-- `resumeSession`. -/
def resumeSession (w : Wiring) (token : Bytes) : Action SessionResult := do
  if (Validator.token token).isSome || !w.sessionStore then
    return { code := .invalidCredentials, message := str "invalid or expired token" }
  let some stored ← Prog.perform (.getToken token)
    | return { code := .invalidCredentials, message := str "invalid or expired token" }
  return { code := .ok, message := str "resume session success",
           session := ⟨true, stored.userId, stored.username, token⟩ }

/-- `requestTokenMatches`. -/
def requestTokenMatches (w : Wiring) (conn : ConnId) (token : Bytes) : Action Bool := do
  if (Validator.token token).isSome then
    return false
  let some session ← getAuthenticatedSession conn | return false
  if session.token ≠ token then
    return false
  if !w.sessionStore then
    return true
  let some stored ← Prog.perform (.getToken token) | return false
  return stored.userId = session.userId ∧ stored.username = session.username

/-- `logout`. -/
def logout (conn : ConnId) : Action LogoutResult := do
  let some _ ← Prog.perform (.getSession conn)
    | return { code := .userNotFound, message := str "user not logged in" }
  return { code := .ok, message := str "logout success" }

/-- `whoami`. -/
def whoami (conn : ConnId) : Action SessionResult := do
  let some session ← getAuthenticatedSession conn
    | return { code := .userNotFound, message := str "user not logged in" }
  return { code := .ok, message := str "ok", session }

/-- `refreshPresence`; the answer of the store is not looked at. -/
def refreshPresence (w : Wiring) (conn : ConnId) : Action Unit := do
  let some session ← Prog.perform (.getSession conn) | return ()
  if w.sessionStore then
    let _ ← Prog.perform (.refresh conn session)

end Account

end ChatServer.Service
