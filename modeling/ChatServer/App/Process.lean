import ChatServer.App.Custody
import ChatServer.Handler.Outcomes
import ChatServer.Net.Roster
import ChatServer.Service.UserService

/-!
# The server process

`TcpServer` and `MessageHandler` over one `SessionManager`, from the call of
`start()` to its return. The steps are those of the network layer with what the
handler does to the sessions:

* a session action of a response round goes to `applyBindSession` or
  `applyUnbindSession` in the same step;
* `isConnectionBoundToUser` is a step of its own (`check`), so that the other
  threads may run between the check and the append of a push;
* a cleanup clears the session when the worker is through with it, or in the
  step that closes the connection if the pool refuses the cleanup.

`start()` leaves its loop (`leaveLoop`), closes every client, waits for the pool
(`stopPool`) and returns (`finish`). `accepted`, `begun` and `finished` are a
history of the connections registered and of the calls of `onConnectionClosed`.
-/

namespace ChatServer.App

open Net Service

/-- Where `TcpServer::start` is. -/
inductive Phase
  /-- in `acceptLoop` -/
  | serving
  /-- in `cleanup_resources`, closing the clients -/
  | closing
  /-- in `worker_pool_.stop()` -/
  | draining
  | returned
  deriving DecidableEq, Repr

/-- The steps of the network layer a phase has. -/
def Phase.admits : Phase → Net.Label → Bool
  | .serving, .close _ .serverStop _ => false
  | .serving, _ => true
  | .closing, .close _ .serverStop _ => true
  | _, l => l.offLoop

structure Process where
  net : Server := {}
  sessions : SessionManager := {}
  /-- what `isConnectionBoundToUser` answered for the push in hand -/
  checked : Option Bool := none
  phase : Phase := .serving
  accepted : List ConnId := []
  begun : List ConnId := []
  finished : List ConnId := []

inductive Label
  | net (l : Net.Label)
  | check
  | leaveLoop
  | stopPool
  | finish
  deriving DecidableEq, Repr

/-- `applyBindSession` and `applyUnbindSession`. The time of issue goes to Redis
only. -/
def applySession (m : SessionManager) (c : ConnId) (r : HandleResult) : SessionManager :=
  match r.sessionAction with
  | .none => m
  | .bind => (UserService.bindSession m c r.pendingSession 0).1
  | .unbind => (UserService.logoutSession m c).1

/-- `onConnectionClosed`, if it is called. -/
def onConnectionClosed (m : SessionManager) : Option ConnId → SessionManager
  | none => m
  | some c => (UserService.clearSession m c).1

namespace Process

variable (s : Process)

/-- The connection this step closes and cleans up itself, the pool having
refused the cleanup. -/
def inPlace (l : Net.Label) (net : Server) : Option ConnId :=
  (s.net.subject l).filter fun c => s.net.registered c && !net.registered c && !l.cleanup

/-- A push is decided by the answer for its target. -/
def answered : Net.Label → Bool
  | .io env =>
    s.net.io.push.isNone || s.net.io.skips env || decide (s.checked = some env.bound)
  | _ => true

/-- The process after a step of the network layer to `net`. -/
def follow (l : Net.Label) (net : Server) : Process :=
  let ended := (s.net.ends l).or (s.inPlace l net)
  { s with
    net := net
    sessions := onConnectionClosed
      (match s.net.action l with
        | some t => applySession s.sessions t.connId t.result
        | none => s.sessions) ended
    checked :=
      match l with
      | .io _ => none
      | _ => s.checked
    accepted := s.accepted ++ (s.net.registers l).toList
    begun := s.begun ++ ((s.net.begins l).or (s.inPlace l net)).toList
    finished := s.finished ++ ended.toList }

/-- `stop()`, which does nothing the second time. -/
def stopped (net : Server) : Server :=
  if net.stopping then net else { net with stopping := true, remotePushTasks := [] }

def step : Label → Option Process
  | .net l =>
    if s.phase.admits l && s.answered l then (s.net.step l).map (s.follow l) else none
  | .check =>
    match s.checked, s.net.io.push with
    | none, some (c, u, _) =>
      some { s with checked := some (UserService.isConnectionBoundToUser s.sessions c u) }
    | _, _ => none
  | .leaveLoop =>
    if s.phase = .serving ∧ s.net.io = .idle then
      some { s with phase := .closing, net := stopped s.net }
    else none
  | .stopPool =>
    if s.phase = .closing ∧ ∀ c < s.net.nextConnId, s.net.registered c = false then
      some { s with phase := .draining }
    else none
  | .finish =>
    if s.phase = .draining ∧ s.net.tasks = [] ∧ s.net.workers = [] then
      some { s with phase := .returned, net := { s.net with completedTasks := [] } }
    else none

end Process

/-- A process that has just called `start()`; the handler is arbitrary. -/
def process : Base.Lts Process Label where
  Init s := s = {}
  step s l := s.step l

/-- The handler is `MessageHandler`: a worker leaves `handle` with an outcome that
the answers of the interfaces allow. -/
def ByMessageHandler (w : Wiring) (s : Process) : Label → Prop
  | .net (.worker i outcome) => ∀ t, s.net.workers[i]? = some (.handling t) →
      (Handler.handle w t.request t.connId t.peerIp).Yields Handler.Stored outcome
  | _ => True

end ChatServer.App
