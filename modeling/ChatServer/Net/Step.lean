import ChatServer.Net.TcpServer

/-!
# The server's steps

One label is one access to shared state by one thread. The I/O thread's
functions are cut at their calls into the worker pool, the queues and the
contexts; what lies between two cuts touches nothing another thread uses.
-/

namespace ChatServer.Net

open ChatServer.Codec ConnectionContext

/-- Outcome of `recv`; `EAGAIN` and the peer's half-close both end the loop. -/
inductive RecvResult
  | again
  | eof
  | error
  | data (chunk : Bytes)
  deriving DecidableEq, Repr

/-- Outcome of `send`. -/
inductive SendResult
  | again
  | closed
  | error
  | sent (bytes : Nat)
  deriving DecidableEq, Repr

/-- What the environment answers during one step of the I/O thread. -/
structure Env where
  recv : RecvResult := .again
  send : SendResult := .again
  /-- `epoll_ctl` accepted the new interest set -/
  writable : Bool := true
  /-- `worker_pool_.submit` did not throw -/
  submit : Bool := true
  /-- the same for the cleanup of a closed connection -/
  cleanup : Bool := true
  /-- `isConnectionBoundToUser` -/
  bound : Bool := true
  /-- the remote push task could be claimed -/
  claimed : Bool := true
  /-- the entry of `cross_conn_pushes` that comes next -/
  pick : Nat := 0
  deriving DecidableEq, Repr

/-- Why the event loop closes a connection on its own account. -/
inductive CloseReason
  | peerError
  | peerHup
  | timedOut
  | serverStop
  deriving DecidableEq, Repr

inductive Label
  | accept (peerIp : Bytes)
  | readable (connId : ConnId)
  | writable (connId : ConnId)
  | workerResult
  | close (connId : ConnId) (reason : CloseReason) (cleanup : Bool)
  | io (env : Env)
  | take
  | worker (i : Nat) (outcome : Option HandleResult)
  | remotePush (event : RemotePush)
  | stop
  deriving DecidableEq, Repr

namespace Server

/-! ## `onReadable` and `onWritable` -/

/-- A received chunk goes through `feedPacketData`. -/
def receive (s : Server) (c : ConnId) (chunk : Bytes) (env : Env) : Server :=
  let r := (s.contexts c).packetCodec.feed chunk
  let s := s.setContext c { s.contexts c with packetCodec := r.codec }
  if r.ok then
    { s.setHistory c
        { s.history c with
          received := (s.history c).received ++ chunk
          framed := (s.history c).framed ++ r.packets.filter fun p => !p.isEmpty } with
      io := .packets c r.packets }
  else { s.closeClientFd c env.cleanup with io := .idle }

/-- One `recv` of `onReadable`; the buffer takes 1023 bytes. -/
def readSome (s : Server) (c : ConnId) (env : Env) : Option Server :=
  match env.recv with
  | .again => some { s with io := .idle }
  | .eof => some { s with io := .idle }
  | .error => some { s.closeClientFd c env.cleanup with io := .idle }
  | .data chunk =>
    if 0 < chunk.length ∧ chunk.length ≤ 1023 then some (s.receive c chunk env) else none

/-- One round of the packet loop. -/
def nextPacket (s : Server) (c : ConnId) : List Bytes → Server
  | [] => { s with io := .reading c }
  | packet :: rest =>
    if packet.isEmpty then { s with io := .packets c rest }
    else
      let r := (s.contexts c).startRequestOrQueue packet
      { s.setContext c r.2 with
        io := if r.1 then .submitRead c packet rest else .packets c rest }

/-- A request granted in the packet loop is submitted; a refusal closes the
connection and leaves `onReadable`. -/
def submitRead (s : Server) (c : ConnId) (request : Bytes) (rest : List Bytes) (env : Env) :
    Server :=
  match s.submitRequestTask c request env.submit with
  | some s' => { s' with io := .packets c rest }
  | none => { s.closeClientFd c env.cleanup with io := .idle }

/-- One round of `onWritable`. -/
def writeSome (s : Server) (c : ConnId) (env : Env) : Server :=
  if (s.contexts c).pendingSend.isEmpty then
    if env.writable then { s with io := .idle }
    else { s.closeClientFd c env.cleanup with io := .idle }
  else
    match env.send with
    | .again => { s with io := .idle }
    | .closed => { s.closeClientFd c env.cleanup with io := .idle }
    | .error => { s.closeClientFd c env.cleanup with io := .idle }
    | .sent n =>
      (s.setContext c ((s.contexts c).consumePendingSend n)).setHistory c
        { s.history c with sent := (s.history c).sent ++ (s.contexts c).pendingSend.take n }

/-! ## `onWorkerResultReadable` -/

/-- Proceed with the remaining rounds. -/
def proceed (s : Server) (ops : List IoOp) : Server := { s with io := .drain ops }

/-- One remote push task. -/
def remoteOp (s : Server) (e : RemotePush) (ops : List IoOp) (env : Env) : Server :=
  let c := e.targetConnectionId
  if env.claimed && env.bound && s.registered c then
    let s := (s.append c e.payload).record c (.push e.payload)
    if env.writable then s.proceed ops
    else (s.closeClientFd c env.cleanup).proceed ops
  else s.proceed ops

/-- Proceed within a response round. -/
def inRound (s : Server) (pos : RoundPos) (loc : RespLocals) (ops : List IoOp) : Server :=
  { s with io := .round pos loc ops }

/-- The locals at the start of a response round. -/
def locals (t : ResponseTask) (deferred : Bool) : RespLocals :=
  ⟨t, deferred, t.result.pushes, [], 0, []⟩

/-- A response round up to the session action. -/
def respondOp (s : Server) (t : ResponseTask) (ops : List IoOp) (env : Env) : Server :=
  let c := t.connId
  if !s.canLock c then s.proceed ops
  else if t.closeAfter then (s.closeClientFd c env.cleanup).proceed ops
  else if t.result.response.isEmpty then s.inRound .session (locals t false) ops
  else
    let s := (s.append c t.result.response).record c (.response t.result.response)
    if !(env.writable && s.registered c) then (s.closeClientFd c env.cleanup).proceed ops
    else if t.result.deliveredMessageIds.isEmpty || !env.submit then
      s.inRound .session (locals t false) ops
    else
      { s with
        tasks := s.tasks ++
          [.mark ⟨t.result.deliveredUserId, t.result.deliveredMessageIds, c, true, t.index⟩]
        io := .round .session (locals t true) ops }

/-- The session action of a response round. -/
def sessionOp (s : Server) (loc : RespLocals) (ops : List IoOp) : Server :=
  let c := loc.task.connId
  let r := loc.task.result
  match r.sessionAction with
  | .none => s.inRound .pushes loc ops
  | .bind =>
    ((s.bindAuthenticatedConnection c r.pendingSession.userId).record c
      (.session .bind r.pendingSession)).inRound .pushes loc ops
  | .unbind =>
    ((s.unbindAuthenticatedConnection c).record c
      (.session .unbind r.pendingSession)).inRound .pushes loc ops

/-- `cross_conn_pushes[target]` gets another message id. -/
def addCross (target : ConnId) (id : Bytes) (userId : UserId) :
    List (ConnId × List Bytes × UserId) → List (ConnId × List Bytes × UserId)
  | [] => [(target, [id], userId)]
  | e :: es =>
    if e.1 = target then
      (target, e.2.1 ++ [id], if e.2.2 = 0 then userId else e.2.2) :: es
    else e :: addCross target id userId es

/-- A push that reached its send buffer and carries a message id is noted. -/
def RespLocals.note (loc : RespLocals) (p : OutboundMessage) : RespLocals :=
  if p.messageId.isEmpty then loc
  else if p.targetConnId = loc.task.connId then
    { loc with
      sameIds := loc.sameIds ++ [p.messageId]
      sameUser := if loc.sameUser = 0 then p.targetUserId else loc.sameUser }
  else { loc with cross := addCross p.targetConnId p.messageId p.targetUserId loc.cross }

/-- One round of the push loop. -/
def pushesOp (s : Server) (loc : RespLocals) (ops : List IoOp) (env : Env) : Server :=
  match loc.pushes with
  | [] => s.inRound .cross loc ops
  | p :: rest =>
    let loc := { loc with pushes := rest }
    if env.bound && s.registered p.targetConnId && !p.payload.isEmpty then
      let s := (s.append p.targetConnId p.payload).record p.targetConnId (.push p.payload)
      if env.writable then s.inRound .pushes (RespLocals.note loc p) ops
      else (s.closeClientFd p.targetConnId env.cleanup).inRound .pushes loc ops
    else s.inRound .pushes loc ops

/-- One round of the fence loop: the target's counter goes up. -/
def crossOp (s : Server) (loc : RespLocals) (ops : List IoOp) (env : Env) : Option Server :=
  if loc.cross.isEmpty then some (s.inRound .same loc ops)
  else
    match loc.cross[env.pick]? with
    | none => none
    | some (target, ids, userId) =>
      let loc := { loc with cross := loc.cross.eraseIdx env.pick }
      if s.registered target then
        some ((s.setContext target (s.contexts target).incrementPendingDeliveryMarks).inRound
          (.crossSubmit target ids userId) loc ops)
      else some (s.inRound .cross loc ops)

/-- The mark task of a fence round; if the pool refuses it the fence is
released at once. -/
def crossSubmitOp (s : Server) (loc : RespLocals) (target : ConnId) (ids : List Bytes)
    (userId : UserId) (ops : List IoOp) (env : Env) : Server :=
  if env.submit then
    { s with
      tasks := s.tasks ++ [.mark ⟨userId, ids, target, false, 0⟩]
      io := .round .cross loc ops }
  else
    ((s.setContext target
      (s.contexts target).decrementPendingDeliveryMarks).enqueuePostDeliveryEvent
        target false 0).inRound .cross loc ops

/-- The mark task of same-connection pushes. -/
def sameOp (s : Server) (loc : RespLocals) (ops : List IoOp) (env : Env) : Server :=
  if loc.sameIds.isEmpty || !env.submit then s.inRound .finish loc ops
  else
    { s with
      tasks := s.tasks ++
        [.mark ⟨loc.sameUser, loc.sameIds, loc.task.connId, true, loc.task.index⟩]
      io := .round .finish { loc with deferred := true } ops }

/-- `finishCurrentRequestAndSubmitNext` up to the submission. -/
def finishCurrentRequest (s : Server) (c : ConnId) (ops : List IoOp) : Server :=
  match (s.contexts c).finishRequestAndPopNext with
  | (none, ctx) => (s.setContext c ctx).proceed ops
  | (some request, ctx) => { s.setContext c ctx with io := .submitNext c request ops }

/-- `submitNextQueuedRequestIfIdle` up to the submission. -/
def submitNextIfIdle (s : Server) (c : ConnId) (ops : List IoOp) : Server :=
  match (s.contexts c).popNextRequestIfIdle with
  | (none, ctx) => (s.setContext c ctx).proceed ops
  | (some request, ctx) => { s.setContext c ctx with io := .submitNext c request ops }

/-- The end of a response round. -/
def finishOp (s : Server) (loc : RespLocals) (ops : List IoOp) : Server :=
  if loc.deferred then s.proceed ops else s.finishCurrentRequest loc.task.connId ops

/-- One post-delivery event. -/
def eventOp (s : Server) (e : PostDeliveryEvent) (ops : List IoOp) : Server :=
  if !s.registered e.connId then s.proceed ops
  else if e.finishCurrentRequest then s.finishCurrentRequest e.connId ops
  else s.submitNextIfIdle e.connId ops

/-- The submission that ends `finishCurrentRequestAndSubmitNext` and
`submitNextQueuedRequestIfIdle`. -/
def submitNext (s : Server) (c : ConnId) (request : Bytes) (ops : List IoOp) (env : Env) :
    Server :=
  match s.submitRequestTask c request env.submit with
  | some s' => s'.proceed ops
  | none =>
    ((s.setContext c (s.contexts c).clearPendingRequests).closeClientFd c
      env.cleanup).proceed ops

/-- One step of a response round. -/
def roundStep (s : Server) (pos : RoundPos) (loc : RespLocals) (ops : List IoOp) (env : Env) :
    Option Server :=
  match pos with
  | .session => some (s.sessionOp loc ops)
  | .pushes => some (s.pushesOp loc ops env)
  | .cross => s.crossOp loc ops env
  | .crossSubmit target ids userId => some (s.crossSubmitOp loc target ids userId ops env)
  | .same => some (s.sameOp loc ops env)
  | .finish => some (s.finishOp loc ops)

/-- One round of the loops of `onWorkerResultReadable`, up to the first cut. -/
def runOp (s : Server) (op : IoOp) (ops : List IoOp) (env : Env) : Server :=
  match op with
  | .takeRemote =>
    { s with remotePushTasks := [] }.proceed (s.remotePushTasks.map IoOp.remote ++ ops)
  | .remote e => s.remoteOp e ops env
  | .takeCompleted =>
    { s with completedTasks := [] }.proceed (s.completedTasks.map IoOp.respond ++ ops)
  | .respond t => s.respondOp t ops env
  | .takeEvents =>
    { s with postDeliveryEvents := [] }.proceed (s.postDeliveryEvents.map IoOp.event ++ ops)
  | .event e => s.eventOp e ops

/-- The I/O thread's next step. -/
def ioStep (s : Server) (env : Env) : Option Server :=
  match s.io with
  | .idle => none
  | .reading c => s.readSome c env
  | .packets c rest => some (s.nextPacket c rest)
  | .submitRead c request rest => some (s.submitRead c request rest env)
  | .writing c => some (s.writeSome c env)
  | .drain [] => some { s with io := .idle }
  | .drain (op :: ops) => some (s.runOp op ops env)
  | .round pos loc ops => s.roundStep pos loc ops env
  | .submitNext c request ops => some (s.submitNext c request ops env)

/-! ## Workers -/

/-- A worker takes the front task of the pool. -/
def takeTask (s : Server) : Option Server :=
  match s.tasks with
  | [] => none
  | job :: rest =>
    if s.workers.length < kDefaultWorkerThreads then
      let s := { s with tasks := rest }
      match job with
      | .request t =>
        some ({ s with workers := s.workers ++ [Worker.handling t] }.record t.connId
          (.handleBegin t.request))
      | .mark m => some { s with workers := s.workers ++ [.delivering m] }
      | .cleanup c => some { s with workers := s.workers ++ [.cleaning c] }
    else none

/-- The response task made from what `handle` did. -/
def responseTask (t : RequestTask) : Option HandleResult → ResponseTask
  | some r => ⟨t.connId, false, r, t.index⟩
  | none => ⟨t.connId, true, {}, t.index⟩

/-- `enqueueResponseTask`. A refused close task makes the worker clear the
connection's queue itself. -/
def enqueueResponseTask (s : Server) (i : Nat) (t : ResponseTask) : Server :=
  if s.stopping then
    { s with workers := s.workers.set i (if t.closeAfter then .clearing t.connId
        else .leaving t.connId) }
  else
    { s with
      completedTasks := s.completedTasks ++ [t]
      workers := s.workers.set i (.leaving t.connId) }

/-- The next step of worker `i`; `outcome` is what `handle` does if it is the
call that ends here. -/
def workerStep (s : Server) (i : Nat) (outcome : Option HandleResult) : Option Server :=
  match s.workers[i]? with
  | none => none
  | some (.handling t) =>
    some ({ s with workers := s.workers.set i (.handled t outcome) }.record t.connId
      (.handleEnd outcome))
  | some (.handled t o) =>
    if s.canLock t.connId then
      some { s with workers := s.workers.set i (.enqueueing (responseTask t o)) }
    else some { s with workers := s.workers.eraseIdx i }
  | some (.enqueueing t) => some (s.enqueueResponseTask i t)
  | some (.clearing c) =>
    some { s.setContext c (s.contexts c).clearPendingRequests with
      workers := s.workers.set i (.leaving c) }
  | some (.leaving _) => some { s with workers := s.workers.eraseIdx i }
  | some (.delivering m) => some { s with workers := s.workers.set i (.delivered m) }
  | some (.delivered m) =>
    if m.finish then
      some { s.enqueuePostDeliveryEvent m.connId true m.index with
        workers := s.workers.eraseIdx i }
    else if s.registered m.connId then
      some { s with workers := s.workers.set i (.found m.connId) }
    else some { s with workers := s.workers.eraseIdx i }
  | some (.found c) =>
    some { s.setContext c (s.contexts c).decrementPendingDeliveryMarks with
      workers := s.workers.set i (.released c) }
  | some (.released c) =>
    some { s.enqueuePostDeliveryEvent c false 0 with workers := s.workers.eraseIdx i }
  | some (.cleaning _) => some { s with workers := s.workers.eraseIdx i }

/-! ## The system -/

/-- When the event loop closes a connection for the given reason. -/
def mayClose (s : Server) (c : ConnId) : CloseReason → Bool
  | .peerError => true
  | .peerHup => (s.contexts c).pendingSend.isEmpty
  | .timedOut => !(s.contexts c).shouldDeferTimeout
  | .serverStop => s.stopping

/-- The I/O thread turns to a new event of `epoll_wait`. -/
def eventStep (s : Server) : Label → Option Server
  | .accept peerIp => some (s.registerConnection peerIp)
  | .readable c => if s.registered c then some { s with io := .reading c } else none
  | .writable c => if s.registered c then some { s with io := .writing c } else none
  | .workerResult => some { s with io := .drain [.takeRemote, .takeCompleted, .takeEvents] }
  | .close c reason cleanup =>
    if s.registered c && s.mayClose c reason then some (s.closeClientFd c cleanup) else none
  | _ => none

/-- One step of the server. -/
def step (s : Server) : Label → Option Server
  | .io env => s.ioStep env
  | .take => s.takeTask
  | .worker i outcome => s.workerStep i outcome
  | .remotePush e => some { s with remotePushTasks := s.remotePushTasks ++ [e] }
  | .stop => some { s with stopping := true, remotePushTasks := [] }
  | l => if s.io = .idle then s.eventStep l else none

/-- The server, started with no connection. -/
def lts : Base.Lts Server Label where
  Init s := s = {}
  step := step

end Server
end ChatServer.Net
