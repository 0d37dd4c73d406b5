import ChatServer.Base.Lts
import ChatServer.Net.ConnectionContext

/-!
# The TCP server

`TcpServer` as a transition system: the I/O thread, the four threads of the
worker pool and the callers of `stop` and `deliverRemotePush` interleave
freely, one access to shared state at a time.

* The I/O thread's position is an `Io`: idle in `epoll_wait`, inside
  `onReadable`, inside `onWritable`, or inside `onWorkerResultReadable` with
  the list of loop rounds still ahead of it.
* A worker's position is a `Worker`: which closure it runs and how far it is.
* The message handler is arbitrary: what `handle` returns or throws and what
  `isConnectionBoundToUser` answers comes with the label, as does every
  outcome of a system call (`Env`) and every scheduling choice.

Connections are identified by their `conn_id`, which is never reused; a
context outlives its registration for as long as a worker holds it
(`canLock`). `History` fields are history variables: no step reads them.
-/

namespace ChatServer.Net

open ChatServer.Codec ConnectionContext

/-! ## Handler interface -/

inductive SessionAction
  | none
  | bind
  | unbind
  deriving DecidableEq, Repr

/-- `OutboundMessage`. -/
structure OutboundMessage where
  targetConnId : ConnId := 0
  targetUserId : UserId := 0
  payload : Bytes := []
  messageId : Bytes := []
  deriving DecidableEq, Repr

/-- `HandleResult`. -/
structure HandleResult where
  response : Bytes := []
  pushes : List OutboundMessage := []
  sessionAction : SessionAction := .none
  pendingSession : ConnectionSession := {}
  deliveredMessageIds : List Bytes := []
  deliveredUserId : UserId := 0
  deriving DecidableEq, Repr

/-! ## Tasks and events -/

/-- `TcpServer::RequestTask`; `index` is the request's position among the
requests of its connection. -/
structure RequestTask where
  connId : ConnId
  peerIp : Bytes
  request : Bytes
  index : Nat
  deriving DecidableEq, Repr

/-- `ResponseTask`. `result` stands for the fields the worker moves over from
the `HandleResult`; they are defaults in a close task. -/
structure ResponseTask where
  connId : ConnId
  closeAfter : Bool
  result : HandleResult
  index : Nat
  deriving DecidableEq, Repr

/-- A delivery-mark closure. With `finish` it is one of the two that end the
current request of `connId` afterwards, otherwise the cross-connection one that
releases the fence of `connId`. -/
structure MarkTask where
  userId : UserId
  messageIds : List Bytes
  connId : ConnId
  finish : Bool
  index : Nat
  deriving DecidableEq, Repr

/-- The closures submitted to `worker_pool_`. -/
inductive Job
  | request (task : RequestTask)
  | mark (task : MarkTask)
  | cleanup (connId : ConnId)
  deriving DecidableEq, Repr

/-- `TcpServer::PostDeliveryEvent`. -/
structure PostDeliveryEvent where
  connId : ConnId
  finishCurrentRequest : Bool
  index : Nat
  deriving DecidableEq, Repr

/-- The part of `RemotePushEvent` the I/O thread uses. -/
structure RemotePush where
  targetConnectionId : ConnId
  toUserId : UserId
  payload : Bytes
  deriving DecidableEq, Repr

/-- A worker thread inside a closure. -/
inductive Worker
  /-- in `handler_.handle` -/
  | handling (task : RequestTask)
  /-- `handle` returned, or threw (`none`); next `task.context.lock()` -/
  | handled (task : RequestTask) (outcome : Option HandleResult)
  /-- the context is locked; next `enqueueResponseTask` -/
  | enqueueing (task : ResponseTask)
  /-- a close task was refused; next `clearPendingRequests` -/
  | clearing (connId : ConnId)
  /-- leaving the closure with the context still referenced -/
  | leaving (connId : ConnId)
  /-- in `handler_.onMessagesDelivered` -/
  | delivering (task : MarkTask)
  /-- `onMessagesDelivered` is over -/
  | delivered (task : MarkTask)
  /-- cross-connection mark: the target is looked up; next the decrement -/
  | found (connId : ConnId)
  /-- cross-connection mark: decremented; next `enqueuePostDeliveryEvent` -/
  | released (connId : ConnId)
  /-- in `handler_.onConnectionClosed` -/
  | cleaning (connId : ConnId)
  deriving DecidableEq, Repr

/-- The context a worker keeps alive. -/
def Worker.holds : Worker → Option ConnId
  | .enqueueing task => some task.connId
  | .clearing c => some c
  | .leaving c => some c
  | .found c => some c
  | .released c => some c
  | _ => none

/-! ## The I/O thread -/

/-- The local variables of one round of the response loop. -/
structure RespLocals where
  task : ResponseTask
  deferred : Bool
  pushes : List OutboundMessage
  sameIds : List Bytes
  sameUser : UserId
  cross : List (ConnId × List Bytes × UserId)
  deriving DecidableEq, Repr

/-- Where a round of the response loop stands. -/
inductive RoundPos
  | session
  | pushes
  | cross
  /-- the fence of `target` is up; next its mark task is submitted -/
  | crossSubmit (target : ConnId) (ids : List Bytes) (userId : UserId)
  | same
  | finish
  deriving DecidableEq, Repr

/-- What is left to do inside `onWorkerResultReadable` after the current round. -/
inductive IoOp
  | takeRemote
  | remote (event : RemotePush)
  | takeCompleted
  | respond (task : ResponseTask)
  | takeEvents
  | event (e : PostDeliveryEvent)
  deriving DecidableEq, Repr

/-- The I/O thread's position. -/
inductive Io
  | idle
  | reading (connId : ConnId)
  | packets (connId : ConnId) (rest : List Bytes)
  | submitRead (connId : ConnId) (request : Bytes) (rest : List Bytes)
  | writing (connId : ConnId)
  | drain (ops : List IoOp)
  | round (pos : RoundPos) (loc : RespLocals) (ops : List IoOp)
  | submitNext (connId : ConnId) (request : Bytes) (ops : List IoOp)
  deriving DecidableEq, Repr

/-! ## Server state -/

/-- What a connection has been through, in order. -/
inductive Event
  | handleBegin (request : Bytes)
  | handleEnd (outcome : Option HandleResult)
  | response (payload : Bytes)
  | session (action : SessionAction) (session : ConnectionSession)
  | push (payload : Bytes)
  deriving DecidableEq, Repr

/-- History variables of one connection. -/
structure History where
  received : Bytes := []
  framed : List Bytes := []
  submitted : List Bytes := []
  sent : Bytes := []
  trace : List Event := []

structure Server where
  stopping : Bool := false
  nextConnId : ConnId := 1
  registered : ConnId → Bool := fun _ => false
  contexts : ConnId → ConnectionContext := fun _ => {}
  authenticatedConnections : UserId → List ConnId := fun _ => []
  tasks : List Job := []
  workers : List Worker := []
  completedTasks : List ResponseTask := []
  postDeliveryEvents : List PostDeliveryEvent := []
  remotePushTasks : List RemotePush := []
  io : Io := .idle
  history : ConnId → History := fun _ => {}

namespace Server

/-- `TcpServer::kDefaultWorkerThreads`. -/
def kDefaultWorkerThreads : Nat := 4

/-- Update one context. -/
def setContext (s : Server) (c : ConnId) (ctx : ConnectionContext) : Server :=
  { s with contexts := Function.update s.contexts c ctx }

/-- Update one history. -/
def setHistory (s : Server) (c : ConnId) (h : History) : Server :=
  { s with history := Function.update s.history c h }

/-- Append to a connection's trace. -/
def record (s : Server) (c : ConnId) (e : Event) : Server :=
  s.setHistory c { s.history c with trace := (s.history c).trace ++ [e] }

/-- `weak_ptr::lock` on a context: some strong reference is left. -/
def canLock (s : Server) (c : ConnId) : Bool :=
  s.registered c || s.workers.any fun w => w.holds == some c

/-- Append an encoded payload to a send buffer. -/
def append (s : Server) (c : ConnId) (payload : Bytes) : Server :=
  s.setContext c ((s.contexts c).appendPendingSend (encode payload))

/-- Take a connection out of `authenticated_connections_`. -/
def dropAuthenticated (s : Server) (c : ConnId) : Server :=
  let u := (s.contexts c).authenticatedUserId
  { s with
    authenticatedConnections := Function.update s.authenticatedConnections u
      ((s.authenticatedConnections u).filter (· ≠ c)) }

/-- `unbindAuthenticatedConnection`. -/
def unbindAuthenticatedConnection (s : Server) (c : ConnId) : Server :=
  (s.dropAuthenticated c).setContext c { s.contexts c with authenticatedUserId := 0 }

/-- `bindAuthenticatedConnection`. -/
def bindAuthenticatedConnection (s : Server) (c : ConnId) (u : UserId) : Server :=
  let s := s.unbindAuthenticatedConnection c
  let conns := s.authenticatedConnections u
  let s := { s with
    authenticatedConnections := Function.update s.authenticatedConnections u
      (if c ∈ conns then conns else conns ++ [c]) }
  s.setContext c { s.contexts c with authenticatedUserId := u }

/-- `registerConnection`. -/
def registerConnection (s : Server) (peerIp : Bytes) : Server :=
  { s with
    nextConnId := s.nextConnId + 1
    registered := Function.update s.registered s.nextConnId true
    contexts := Function.update s.contexts s.nextConnId { peerIp := peerIp } }

/-- `dispatchConnectionClosed`: without the pool the cleanup runs in place. -/
def dispatchConnectionClosed (s : Server) (c : ConnId) (submitted : Bool) : Server :=
  if submitted then { s with tasks := s.tasks ++ [.cleanup c] } else s

/-- `closeClientFd` on a context's own descriptor. A closed context's
descriptor is `-1`, which is under no connection. -/
def closeClientFd (s : Server) (c : ConnId) (submitted : Bool) : Server :=
  if s.registered c then
    let s := { s with registered := Function.update s.registered c false }
    let s := s.dropAuthenticated c
    let s := s.setContext c (s.contexts c).clearPendingSend.clearPendingRequests
    s.dispatchConnectionClosed c submitted
  else s

/-- `enqueuePostDeliveryEvent`. -/
def enqueuePostDeliveryEvent (s : Server) (c : ConnId) (finish : Bool) (index : Nat) : Server :=
  { s with postDeliveryEvents := s.postDeliveryEvents ++ [⟨c, finish, index⟩] }

/-- The task a granted request is wrapped into. -/
def requestTask (s : Server) (c : ConnId) (request : Bytes) : RequestTask :=
  ⟨c, (s.contexts c).peerIp, request, (s.history c).submitted.length⟩

/-- `submitRequestTask`; `none` when it refuses. -/
def submitRequestTask (s : Server) (c : ConnId) (request : Bytes) (submitted : Bool) :
    Option Server :=
  if s.stopping || !submitted then none
  else some ({ s with tasks := s.tasks ++ [Job.request (s.requestTask c request)] }.setHistory c
    { s.history c with submitted := (s.history c).submitted ++ [request] })

end Server
end ChatServer.Net
