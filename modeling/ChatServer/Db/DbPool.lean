import ChatServer.Base.Load
import ChatServer.Base.Lts
import ChatServer.Common.Types

/-!
# The connection pool

`DbPool` as a transition system: any number of threads call `borrow`, hold the
connection they get and give it back, while `stop` may run at any time. A step
is what one thread does between two operations on `mutex_`: either a critical
section as a whole, or work outside the lock (the expiry check, the pings,
`createConnection`). What the clock, the server and the factory answer comes
with the label.

`total_connections_` is a `std::size_t` and wraps around; `wrapped` remembers
that a decrement went below zero, and no step reads it. The counters of `stats_`
are left out.
-/

namespace ChatServer.Db

/-! ## Configuration and results -/

/-- `chat::DbPoolError`. -/
inductive DbPoolError where
  | none
  | invalidConfig
  | notInitialized
  | stopping
  | connectFailed
  | borrowTimeout
  | healthCheckFailed
  deriving DecidableEq, Repr

/-- `chat::DbConfig`: the fields `init` checks. -/
structure DbConfig where
  host : Bytes := str "127.0.0.1"
  port : UInt16 := 3306
  username : Bytes := []
  database : Bytes := []
  deriving DecidableEq, Repr

/-- `chat::DbPoolConfig`. -/
structure DbPoolConfig where
  minConnections : UInt64 := 1
  maxConnections : UInt64 := 4
  borrowTimeoutMs : UInt32 := 1000
  connectRetryCount : UInt32 := 1
  connectRetryDelayMs : UInt32 := 100
  idleTimeoutMs : UInt32 := 300000
  maxLifetimeMs : UInt32 := 1800000
  deriving DecidableEq, Repr

/-- The error of `BorrowConnectionResult`, `DbPoolInitResult` and
`CreateConnectionResult`. -/
structure PoolFailure where
  error : DbPoolError
  mysqlErrorCode : Nat := 0
  message : Bytes := []
  deriving DecidableEq, Repr

/-! ## Making a connection -/

/-- What one round of `createConnection` meets. -/
inductive Attempt where
  /-- the factory returned null -/
  | noConnection
  | refused (errorCode : Nat) (errorMessage : Bytes)
  | connected
  deriving DecidableEq, Repr

/-- The rounds of `createConnection`; `last` is the failure of the round before.
`none` is a connection. -/
def connectRounds (attempt : Nat → Attempt) (last : PoolFailure) :
    Nat → Nat → Option PoolFailure
  | _, 0 => some last
  | n, left + 1 =>
    match attempt n with
    | .noConnection => some ⟨.connectFailed, 0, str "connection factory returned null"⟩
    | .connected => none
    | .refused code message =>
      connectRounds attempt ⟨.connectFailed, code, message⟩ (n + 1) left

/-- `createConnection`; the number of rounds is computed in 32 bits. -/
def createConnection (config : DbPoolConfig) (attempt : Nat → Attempt) : Option PoolFailure :=
  connectRounds attempt ⟨.none, 0, []⟩ 0 (config.connectRetryCount + 1).toNat

/-! ## The pool -/

/-- `DbPool::IdleConnection`; the times are nanoseconds of `steady_clock`. -/
structure IdleConnection where
  createTime : Int
  lastReturnTime : Int
  deriving DecidableEq, Repr

/-- `isExpired`. -/
def isExpired (config : DbPoolConfig) (idle : IdleConnection) (now : Int) : Bool :=
  now - idle.lastReturnTime > 1000000 * (config.idleTimeoutMs.toNat : Int) ∨
    now - idle.createTime > 1000000 * (config.maxLifetimeMs.toNat : Int)

/-- Where a thread is between the start of its `borrow` and the end of the
connection it got. -/
inductive Position where
  /-- about to lock `mutex_` at the start of `borrow` -/
  | entering
  /-- a connection is popped; next the expiry check and the ping -/
  | popped (idle : IdleConnection)
  /-- an expired connection is closed; next its slot is given back -/
  | expired
  /-- the ping is made -/
  | pinged (idle : IdleConnection) (healthy : Bool)
  /-- a dead connection is closed, its slot already given back -/
  | closing
  /-- a slot is reserved; next `createConnection` -/
  | connecting
  /-- `createConnection` returned -/
  | connected (failure : Option PoolFailure)
  /-- in `cv_.wait_for` -/
  | waiting
  /-- `borrow` returned this `PooledConnection` -/
  | holding (createTime : Int) (reusable : Bool)
  /-- in `returnConnection`, the ping is made -/
  | returning (createTime : Int) (healthy : Bool)
  /-- `borrow` returned no connection -/
  | refused (failure : PoolFailure)
  /-- the connection was given back -/
  | finished
  deriving DecidableEq, Repr

/-- A call of `borrow` and the connection that came of it. -/
structure Client where
  pos : Position := .entering
  encounteredHealthCheck : Bool := false
  deriving DecidableEq, Repr

structure DbPool where
  idleConnections : List IdleConnection := []
  totalConnections : UInt64 := 0
  stopping : Bool := false
  initialized : Bool := false
  clients : List Client := []
  wrapped : Bool := false
  deriving DecidableEq, Repr

/-- What the environment answers during one step of a thread. -/
structure PoolEnv where
  now : Int := 0
  /-- `DbConnection::ping` -/
  ping : Bool := true
  attempt : Nat → Attempt := fun _ => .connected
  /-- the wait reached its time limit -/
  timedOut : Bool := false

namespace DbPool

/-- `total_connections_ -= n`. -/
def subtract (s : DbPool) (n : UInt64) : DbPool :=
  { s with
    totalConnections := s.totalConnections - n
    wrapped := s.wrapped || s.totalConnections < n }

/-- Move a thread. -/
def goto (s : DbPool) (i : Nat) (c : Client) (pos : Position) : DbPool :=
  { s with clients := s.clients.set i { c with pos := pos } }

/-- One pre-created connection after the other; the failure of one ends `init`. -/
def precreate (config : DbPoolConfig) (attempt : Nat → Nat → Attempt) (now : Nat → Int) :
    Nat → Except PoolFailure (List IdleConnection)
  | 0 => .ok []
  | n + 1 =>
    match precreate config attempt now n with
    | .error f => .error f
    | .ok made =>
      match createConnection config (attempt n) with
      | some f => .error
          { f with message := str "failed to create initial connection: " ++ f.message }
      | none => .ok (made ++ [⟨now n, now n⟩])

/-- The pool with the pre-created connections in its queue. -/
def adopt (s : DbPool) (made : List IdleConnection) : DbPool :=
  { s with
    idleConnections := s.idleConnections ++ made
    totalConnections := s.totalConnections + UInt64.ofNat made.length
    initialized := true }

/-- `init`. -/
def init (db : DbConfig) (config : DbPoolConfig) (attempt : Nat → Nat → Attempt)
    (now : Nat → Int) (s : DbPool) : Except PoolFailure DbPool :=
  if db.host = [] ∨ db.port = 0 ∨ db.username = [] ∨ db.database = [] then
    .error ⟨.invalidConfig, 0, str "host, port, username, or database is empty"⟩
  else if config.minConnections > config.maxConnections then
    .error ⟨.invalidConfig, 0, str "min_connections > max_connections"⟩
  else if config.maxConnections = 0 then
    .error ⟨.invalidConfig, 0, str "max_connections <= 0"⟩
  else if config.borrowTimeoutMs = 0 then
    .error ⟨.invalidConfig, 0, str "borrow_timeout_ms == 0"⟩
  else if config.connectRetryCount > 0 ∧ config.connectRetryDelayMs = 0 then
    .error ⟨.invalidConfig, 0, str "connect_retry_delay_ms == 0"⟩
  else (precreate config attempt now config.minConnections.toNat).map s.adopt

/-- The answer of a `borrow` that finds the pool stopping. -/
def stoppingFailure : PoolFailure := ⟨.stopping, 0, str "DbPool is stopping"⟩

/-- The condition `cv_.wait_for` waits for. -/
def ready (config : DbPoolConfig) (s : DbPool) : Bool :=
  s.stopping || !s.idleConnections.isEmpty || s.totalConnections < config.maxConnections

/-- One round of the loop of `borrow`, from the locked mutex to the next unlock. -/
def round (config : DbPoolConfig) (s : DbPool) (i : Nat) (c : Client) : DbPool :=
  if !s.initialized then
    s.goto i c (.refused ⟨.notInitialized, 0, str "DbPool is not initialized"⟩)
  else if s.stopping then s.goto i c (.refused stoppingFailure)
  else
    match s.idleConnections with
    | idle :: rest => { s with idleConnections := rest }.goto i c (.popped idle)
    | [] =>
      if s.totalConnections < config.maxConnections then
        { s with totalConnections := s.totalConnections + 1 }.goto i c .connecting
      else s.goto i c .waiting

/-- The wait is over. -/
def wake (config : DbPoolConfig) (s : DbPool) (i : Nat) (c : Client) (timedOut : Bool) :
    Option DbPool :=
  let success := s.ready config
  if !success && !timedOut then none
  else if s.stopping then some (s.goto i c (.refused stoppingFailure))
  else if !success && s.idleConnections.isEmpty then
    some (s.goto i c (.refused ⟨if c.encounteredHealthCheck then .healthCheckFailed
      else .borrowTimeout, 0, str "borrow connection timeout"⟩))
  else some (s.round config i c)

/-- The critical section after the ping. -/
def afterPing (s : DbPool) (i : Nat) (c : Client) (idle : IdleConnection) (healthy : Bool) :
    DbPool :=
  if s.stopping then (s.subtract 1).goto i c (.refused stoppingFailure)
  else if healthy then s.goto i c (.holding idle.createTime true)
  else (s.subtract 1).goto i { c with encounteredHealthCheck := true } .closing

/-- The critical section after `createConnection`. -/
def afterConnect (s : DbPool) (i : Nat) (c : Client) (failure : Option PoolFailure) (now : Int) :
    DbPool :=
  if s.stopping then (s.subtract 1).goto i c (.refused stoppingFailure)
  else
    match failure with
    | none => s.goto i c (.holding now true)
    | some f =>
      (s.subtract 1).goto i c
        (.refused { f with
          error := if c.encounteredHealthCheck then .healthCheckFailed else f.error })

/-- The critical section of `returnConnection`. -/
def takeBack (s : DbPool) (i : Nat) (c : Client) (createTime : Int) (healthy : Bool) (now : Int) :
    DbPool :=
  if s.stopping || !healthy then (s.subtract 1).goto i c .finished
  else
    { s with idleConnections := s.idleConnections ++ [IdleConnection.mk createTime now] }.goto i c .finished

/-- The next step of thread `i`. -/
def advance (config : DbPoolConfig) (s : DbPool) (i : Nat) (c : Client) (env : PoolEnv) :
    Option DbPool :=
  match c.pos with
  | .entering => some (s.round config i c)
  | .popped idle =>
    some (s.goto i c (if isExpired config idle env.now then .expired
      else .pinged idle env.ping))
  -- the slot goes back and the loop goes on without unlocking
  | .expired => some ((s.subtract 1).round config i c)
  | .pinged idle healthy => some (s.afterPing i c idle healthy)
  | .closing => some (s.round config i c)
  | .connecting => some (s.goto i c (.connected (createConnection config env.attempt)))
  | .connected failure => some (s.afterConnect i c failure env.now)
  | .waiting => s.wake config i c env.timedOut
  | .holding createTime reusable =>
    some (s.goto i c (.returning createTime (reusable && env.ping)))
  | .returning createTime healthy => some (s.takeBack i c createTime healthy env.now)
  | .refused _ => none
  | .finished => none

/-- `markBad`. -/
def markBad (s : DbPool) (i : Nat) (c : Client) : Option DbPool :=
  match c.pos with
  | .holding createTime _ => some (s.goto i c (.holding createTime false))
  | _ => none

/-- `stop`; the connections taken out of the queue are closed after the unlock. -/
def stop (s : DbPool) : DbPool :=
  if s.stopping then s
  else
    { s with stopping := true, idleConnections := [] }.subtract
      (UInt64.ofNat s.idleConnections.length)

end DbPool

inductive PoolLabel where
  /-- a thread calls `borrow` -/
  | borrow
  | advance (i : Nat) (env : PoolEnv)
  | markBad (i : Nat)
  | stop

/-- One step of the pool. -/
def DbPool.step (config : DbPoolConfig) (s : DbPool) : PoolLabel → Option DbPool
  | .borrow => some { s with clients := s.clients ++ [{}] }
  | .advance i env => s.clients[i]?.bind fun c => s.advance config i c env
  | .markBad i => s.clients[i]?.bind fun c => s.markBad i c
  | .stop => some s.stop

/-- The pool after one successful `init`. -/
def DbPool.lts (db : DbConfig) (config : DbPoolConfig) : Base.Lts DbPool PoolLabel where
  Init s := ∃ attempt now, DbPool.init db config attempt now {} = .ok s
  step := DbPool.step config

end ChatServer.Db
