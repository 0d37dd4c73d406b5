import ChatServer.Net.RemotePushes
import ChatServer.Service.Interface

/-!
# `deliverRemotePush`

Calls of `deliverRemotePush` from any number of threads, with the server they
hand their events to and a thread in `stop()`. The calls are numbered, and
`event` gives the event of each. A `RemotePushTask` is known by its call:
`remotePushTasks` and `taken` name the tasks that wait in `remote_push_tasks_`
and those the I/O thread has swapped out.

The loop over remote pushes is cut where the network layer takes it as one step:
the I/O thread claims the task, deals with the event, and fulfils the promise.
`worker_event_fd_mutex_` is left out; it only keeps threads from one another.
-/

namespace ChatServer.Remote

open Net Service

/-- `RemotePushTask::state`, whose values are 0, 1 and 2. -/
inductive TaskState
  | pending
  | claimed
  | abandoned
  deriving DecidableEq, Repr

/-- Where a call of `deliverRemotePush` is. -/
inductive CallerPos
  | outside
  /-- behind the first check -/
  | preparing
  /-- behind the check under the mutex; next `push_back` -/
  | enqueueing
  /-- next `write` to the event descriptor -/
  | notifying
  /-- `write` failed -/
  | withdrawing
  /-- in `wait_for` -/
  | waiting
  /-- `wait_for` timed out -/
  | expiring
  /-- in `wait` -/
  | blocked
  | returned (outcome : RemoteDeliveryOutcome)
  deriving DecidableEq, Repr

/-- A call with the state and the promise it shares with its task. `sets` counts
the calls of `set_value`; `appended` says where the payload was appended. -/
structure Caller where
  pos : CallerPos := .outside
  state : TaskState := .pending
  completion : Option RemoteDeliveryOutcome := none
  sets : Nat := 0
  appended : List Spot := []
  deriving DecidableEq, Repr

/-- `set_value`; the second call throws `future_error`, which is caught. -/
def Caller.setValue (c : Caller) (outcome : RemoteDeliveryOutcome) : Caller :=
  { c with completion := c.completion.or (some outcome), sets := c.sets + 1 }

/-- Where the I/O thread is with a remote push. -/
inductive Hand
  | free
  /-- the task is claimed -/
  | claimed (k : Nat)
  /-- next `set_value` -/
  | decided (k : Nat) (outcome : RemoteDeliveryOutcome)
  deriving DecidableEq, Repr

/-- Where the thread in `stop()` is. -/
inductive Stopper
  | outside
  /-- `stopping_` is set; next the swap -/
  | flagged
  /-- in the loop over the tasks swapped out -/
  | sweeping (tasks : List Nat)
  /-- a task was abandoned; next `set_value` -/
  | abandoned (k : Nat) (tasks : List Nat)
  deriving DecidableEq, Repr

structure Delivery where
  net : Server := {}
  /-- `worker_event_fd_` is open -/
  eventFd : Bool := false
  callers : Nat → Caller := fun _ => {}
  remotePushTasks : List Nat := []
  taken : List Nat := []
  hand : Hand := .free
  stopper : Stopper := .outside

inductive Label
  | net (l : Net.Label)
  /-- `start()` opens and closes the event descriptor -/
  | eventFd (opened : Bool)
  -- `deliverRemotePush`
  | call (k : Nat)
  | enter (k : Nat)
  | enqueue (k : Nat)
  | notify (k : Nat) (written : Bool)
  | withdraw (k : Nat)
  | timeout (k : Nat)
  | expire (k : Nat)
  | get (k : Nat)
  -- the loop over remote pushes in `onWorkerResultReadable`
  | claim
  | deliver (env : Env)
  | fulfil
  -- `stop`
  | stop
  | swap
  | sweep
  | refuse
  deriving DecidableEq, Repr

inductive Thread
  | io
  | stopper
  | other
  deriving DecidableEq, Repr

/-- The thread that takes a step. -/
def Label.thread : Label → Thread
  | .net l => if l.offLoop then .other else .io
  | .claim | .deliver _ | .fulfil => .io
  | .swap | .sweep | .refuse => .stopper
  | _ => .other

namespace Delivery

variable (event : Nat → RemotePush) (s : Delivery)

def setCaller (k : Nat) (c : Caller) : Delivery :=
  { s with callers := Function.update s.callers k c }

/-- The call proceeds. -/
def goTo (k : Nat) (pos : CallerPos) : Delivery := s.setCaller k { s.callers k with pos := pos }

/-- The caller tries to abandon its task, and proceeds if it comes too late. -/
def abandonOr (k : Nat) (pos : CallerPos) : Delivery :=
  if (s.callers k).state = .pending then
    s.setCaller k { s.callers k with state := .abandoned, pos := .returned .retry }
  else s.goTo k pos

/-- `deliverRemotePush` rejects the event at once. -/
def rejects (k : Nat) : Bool :=
  s.net.stopping || (event k).targetConnectionId == 0 || decide ((event k).toUserId ≤ 0) ||
    (event k).payload.isEmpty

/-- The steps of the network layer that are not split or taken over here; the
I/O thread is at one place. -/
def admits : Net.Label → Bool
  | .io _ => decide (s.hand = .free) && !s.net.io.atRemote
  | .remotePush _ => false
  | .stop => false
  | l => l.offLoop || decide (s.hand = .free)

/-- The network layer steps to `net`; the I/O thread may swap out the queue. -/
def follow (l : Net.Label) (net : Server) : Delivery :=
  match l with
  | .io _ =>
    if s.net.io.takesRemote then
      { s with net := net, taken := s.remotePushTasks ++ s.taken, remotePushTasks := [] }
    else { s with net := net }
  | _ => { s with net := net }

/-- The target of a claimed task is bound to the user and registered. -/
def reaches (k : Nat) (env : Env) : Bool :=
  env.bound && s.net.registered (event k).targetConnectionId

/-- What the I/O thread finds out about a claimed task. -/
def outcome (k : Nat) (env : Env) : RemoteDeliveryOutcome :=
  if s.reaches event k env then if env.writable then .delivered else .retry else .invalidTarget

/-- Where the I/O thread appends the payload. -/
def spots (k : Nat) (env : Env) : List Spot :=
  let target := (event k).targetConnectionId
  if s.reaches event k env then [⟨target, (s.net.history target).trace.length⟩] else []

/-- A task that is not pending is skipped. -/
def claimStep : Option Delivery :=
  match s.taken with
  | [] => none
  | k :: rest =>
    if (s.callers k).state = .pending then
      some { s.setCaller k { s.callers k with state := .claimed } with hand := .claimed k }
    else (s.net.step (.io { claimed := false })).map fun net =>
      { s with net := net, taken := rest }

def deliverStep (k : Nat) (env : Env) : Option Delivery :=
  (s.net.step (.io { env with claimed := true })).map fun net =>
    { s.setCaller k { s.callers k with
        appended := (s.callers k).appended ++ s.spots event k env } with
      net := net
      taken := s.taken.tail
      hand := .decided k (s.outcome event k env) }

/-- One round of the loop in `stop()`. -/
def sweepStep (k : Nat) (tasks : List Nat) : Delivery :=
  if (s.callers k).state = .pending then
    { s.setCaller k { s.callers k with state := .abandoned } with stopper := .abandoned k tasks }
  else { s with stopper := .sweeping tasks }

def step : Label → Option Delivery
  | .net l => if s.admits l then (s.net.step l).map (s.follow l) else none
  | .eventFd opened => some { s with eventFd := opened }
  | .call k =>
    if (s.callers k).pos = .outside then
      some (s.goTo k (if s.rejects event k then .returned .invalidTarget else .preparing))
    else none
  | .enter k =>
    if (s.callers k).pos = .preparing then
      some (s.goTo k (if s.net.stopping || !s.eventFd then .returned .retry else .enqueueing))
    else none
  | .enqueue k =>
    if (s.callers k).pos = .enqueueing then
      some { s.goTo k .notifying with
        net := { s.net with remotePushTasks := s.net.remotePushTasks ++ [event k] }
        remotePushTasks := s.remotePushTasks ++ [k] }
    else none
  | .notify k written =>
    if (s.callers k).pos = .notifying then
      some (s.goTo k (if written then .waiting else .withdrawing))
    else none
  | .withdraw k =>
    if (s.callers k).pos = .withdrawing then some (s.abandonOr k .waiting) else none
  | .timeout k =>
    if (s.callers k).pos = .waiting ∧ (s.callers k).completion = none then
      some (s.goTo k .expiring)
    else none
  | .expire k =>
    if (s.callers k).pos = .expiring then some (s.abandonOr k .blocked) else none
  | .get k =>
    if (s.callers k).pos = .waiting ∨ (s.callers k).pos = .blocked then
      (s.callers k).completion.map fun outcome => s.goTo k (.returned outcome)
    else none
  | .claim => if s.hand = .free ∧ s.net.io.atRemote then s.claimStep else none
  | .deliver env =>
    match s.hand with
    | .claimed k => s.deliverStep event k env
    | _ => none
  | .fulfil =>
    match s.hand with
    | .decided k outcome =>
      some { s.setCaller k ((s.callers k).setValue outcome) with hand := .free }
    | _ => none
  | .stop =>
    if s.net.stopping then some s
    else some { s with net := { s.net with stopping := true }, stopper := .flagged }
  | .swap =>
    if s.stopper = .flagged then
      some { s with
        net := { s.net with remotePushTasks := [] }
        remotePushTasks := []
        stopper := .sweeping s.remotePushTasks }
    else none
  | .sweep =>
    match s.stopper with
    | .sweeping (k :: tasks) => some (s.sweepStep k tasks)
    | _ => none
  | .refuse =>
    match s.stopper with
    | .abandoned k tasks =>
      some { s.setCaller k ((s.callers k).setValue .retry) with stopper := .sweeping tasks }
    | _ => none

end Delivery

/-- A server with callers of `deliverRemotePush`; the handler is arbitrary. -/
def delivery (event : Nat → RemotePush) : Base.Lts Delivery Label where
  Init s := s = {}
  step s l := s.step event l

end ChatServer.Remote
