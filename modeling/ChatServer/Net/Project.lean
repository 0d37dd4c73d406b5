import Mathlib.Tactic.Abel
import ChatServer.Net.Lane
import ChatServer.Net.Step

/-!
# Lanes of the server

`Server.lane s c` is the lane of connection `c` in the server state `s`: what
the tasks, workers, queues and the I/O thread hold for `c` is summed up by
`Base.load`.
-/

namespace ChatServer.Net

open ChatServer.Codec ConnectionContext
open Base (load)

/-! ## What each item holds for a connection -/

def MarkTask.share (c : ConnId) (m : MarkTask) : Share :=
  if m.connId = c then
    if m.finish then Share.token ⟨m.index, .finishing⟩ else Share.fence
  else 0

def Job.share (c : ConnId) : Job → Share
  | .request t => if t.connId = c then Share.token ⟨t.index, .waiting t.request⟩ else 0
  | .mark m => m.share c
  | .cleanup _ => 0

/-- What the handler did for the request a response task answers. -/
def ResponseTask.outcome (t : ResponseTask) : Option HandleResult :=
  if t.closeAfter then none else some t.result

def ResponseTask.share (c : ConnId) (t : ResponseTask) : Share :=
  if t.connId = c then Share.token ⟨t.index, .ran t.outcome⟩ else 0

def Worker.share (c : ConnId) : Worker → Share
  | .handling t => if t.connId = c then Share.token ⟨t.index, .running⟩ else 0
  | .handled t o => if t.connId = c then Share.token ⟨t.index, .ran o⟩ else 0
  | .enqueueing t => t.share c
  | .clearing _ => 0
  | .leaving _ => 0
  | .delivering m => m.share c
  | .delivered m => m.share c
  | .found d => if d = c then Share.fence else 0
  | .released d => if d = c then Share.wake else 0
  | .cleaning _ => 0

def PostDeliveryEvent.share (c : ConnId) (e : PostDeliveryEvent) : Share :=
  if e.connId = c then
    if e.finishCurrentRequest then Share.token ⟨e.index, .finishing⟩ else Share.wake
  else 0

def IoOp.share (c : ConnId) : IoOp → Share
  | .respond t => t.share c
  | .event e => e.share c
  | _ => 0

def RoundPos.share (c : ConnId) : RoundPos → Share
  | .crossSubmit target _ _ => if target = c then Share.fence else 0
  | _ => 0

/-- A round ends its request itself unless the end is deferred. -/
def RespLocals.share (c : ConnId) (loc : RespLocals) : Share :=
  if loc.task.connId = c ∧ loc.deferred = false then
    Share.token ⟨loc.task.index, .finishing⟩
  else 0

def RoundPos.applied : RoundPos → Bool
  | .session => false
  | _ => true

namespace Io

def share (c : ConnId) : Io → Share
  | .drain ops => load (IoOp.share c) ops
  | .round pos loc ops => pos.share c + (loc.share c + load (IoOp.share c) ops)
  | .submitNext _ _ ops => load (IoOp.share c) ops
  | _ => 0

def roundOf (c : ConnId) : Io → Option Round
  | .round pos loc _ =>
    if loc.task.connId = c then some ⟨loc.task.index, loc.task.result, pos.applied⟩ else none
  | _ => none

def granted (c : ConnId) : Io → List Bytes
  | .submitRead d request _ => if d = c then [request] else []
  | .submitNext d request _ => if d = c then [request] else []
  | _ => []

def unread (c : ConnId) : Io → List Bytes
  | .packets d rest => if d = c then rest.filter fun p => !p.isEmpty else []
  | .submitRead d _ rest => if d = c then rest.filter fun p => !p.isEmpty else []
  | _ => []

/-- The two positions look alike from connection `c`. -/
structure Alike (c : ConnId) (io io' : Io) : Prop where
  share : io'.share c = io.share c
  round : io'.roundOf c = io.roundOf c
  granted : io'.granted c = io.granted c
  unread : io'.unread c = io.unread c

end Io

namespace Server

/-- The items of the pool and the queues on their way to connection `c`. -/
def queued (s : Server) (c : ConnId) : Share :=
  load (Job.share c) s.tasks + (load (Worker.share c) s.workers +
    (load (ResponseTask.share c) s.completedTasks +
      load (PostDeliveryEvent.share c) s.postDeliveryEvents))

/-- All items on their way to connection `c`. -/
def held (s : Server) (c : ConnId) : Share := s.io.share c + s.queued c

/-- The lane of a connection. -/
def lane (s : Server) (c : ConnId) : Lane where
  live := s.registered c
  stopping := s.stopping
  context := s.contexts c
  history := s.history c
  granted := s.io.granted c
  unread := s.io.unread c
  round := s.io.roundOf c
  held := s.held c

section

variable {s : Server} {c d : ConnId}

/-! ## Queues -/

theorem queued_addTask (job : Job) :
    ({ s with tasks := s.tasks ++ [job] } : Server).queued c = job.share c + s.queued c := by
  simp only [queued, Base.load_append, Base.load_cons, Base.load_nil]
  abel

theorem queued_addWorker (w : Worker) :
    ({ s with workers := s.workers ++ [w] } : Server).queued c = w.share c + s.queued c := by
  simp only [queued, Base.load_append, Base.load_cons, Base.load_nil]
  abel

theorem queued_addCompleted (t : ResponseTask) :
    ({ s with completedTasks := s.completedTasks ++ [t] } : Server).queued c =
      t.share c + s.queued c := by
  simp only [queued, Base.load_append, Base.load_cons, Base.load_nil]
  abel

theorem queued_addEvent (e : PostDeliveryEvent) :
    ({ s with postDeliveryEvents := s.postDeliveryEvents ++ [e] } : Server).queued c =
      e.share c + s.queued c := by
  simp only [queued, Base.load_append, Base.load_cons, Base.load_nil]
  abel

theorem queued_takeTask {job : Job} {rest : List Job} (h : s.tasks = job :: rest) :
    s.queued c = job.share c + ({ s with tasks := rest } : Server).queued c := by
  simp only [queued, h, Base.load_cons]
  abel

theorem queued_takeCompleted :
    s.queued c = load (ResponseTask.share c) s.completedTasks +
      ({ s with completedTasks := [] } : Server).queued c := by
  simp only [queued, Base.load_nil]
  abel

theorem queued_takeEvents :
    s.queued c = load (PostDeliveryEvent.share c) s.postDeliveryEvents +
      ({ s with postDeliveryEvents := [] } : Server).queued c := by
  simp only [queued, Base.load_nil]
  abel

/-- Single out what one worker holds. -/
theorem queued_worker {i : Nat} {w : Worker} (h : s.workers[i]? = some w) :
    ∃ x, s.queued c = w.share c + x ∧
      ({ s with workers := s.workers.eraseIdx i } : Server).queued c = x ∧
      ∀ w', ({ s with workers := s.workers.set i w' } : Server).queued c = w'.share c + x := by
  obtain ⟨rest, hl, he, hs⟩ := Base.load_focus (Worker.share c) h
  refine ⟨load (Job.share c) s.tasks + (rest +
    (load (ResponseTask.share c) s.completedTasks +
      load (PostDeliveryEvent.share c) s.postDeliveryEvents)), ?_, ?_, fun w' => ?_⟩
  · simp only [queued, hl]
    abel
  · simp only [queued, he]
  · simp only [queued, hs]
    abel

/-! ## Lanes under the state updates -/

@[simp] theorem lane_record_ne (h : c ≠ d) (e : Event) : (s.record d e).lane c = s.lane c := by
  simp [lane, held, queued, record, setHistory, h]

@[simp] theorem lane_setContext_ne (h : c ≠ d) (ctx : ConnectionContext) :
    (s.setContext d ctx).lane c = s.lane c := by
  simp [lane, held, queued, setContext, h]

@[simp] theorem lane_setHistory_ne (h : c ≠ d) (hist : History) :
    (s.setHistory d hist).lane c = s.lane c := by
  simp [lane, held, queued, setHistory, h]

@[simp] theorem lane_record_self (e : Event) :
    (s.record c e).lane c = (s.lane c).record [e] := by
  simp [lane, held, queued, record, setHistory, Lane.record]

@[simp] theorem lane_setContext_self (ctx : ConnectionContext) :
    (s.setContext c ctx).lane c = { s.lane c with context := ctx } := by
  simp [lane, held, queued, setContext]

@[simp] theorem lane_setHistory_self (hist : History) :
    (s.setHistory c hist).lane c = { s.lane c with history := hist } := by
  simp [lane, held, queued, setHistory]

/-- Moving the I/O thread between positions that look alike. -/
theorem lane_io {io : Io} (h : Io.Alike c s.io io) :
    ({ s with io := io } : Server).lane c = s.lane c := by
  simp [lane, held, queued, h.share, h.round, h.granted, h.unread]

end

end Server
end ChatServer.Net
