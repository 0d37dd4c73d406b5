import ChatServer.Net.LaneStep
import ChatServer.Net.LaneTrace

/-!
# What is pending for a connection

The items a lane sums up, listed and counted in terms of the server's own
queues: the requests whose end is pending, the mark tasks that hold a fence
and the wake-ups after one.
-/

namespace ChatServer.Net

open Base (load)

/-! ## Requests whose end is pending -/

def MarkTask.ends (c : ConnId) (m : MarkTask) : Option Nat :=
  if m.connId = c ∧ m.finish = true then some m.index else none

def Job.ends (c : ConnId) : Job → Option Nat
  | .request t => if t.connId = c then some t.index else none
  | .mark m => m.ends c
  | .cleanup _ => none

def ResponseTask.ends (c : ConnId) (t : ResponseTask) : Option Nat :=
  if t.connId = c then some t.index else none

def Worker.ends (c : ConnId) : Worker → Option Nat
  | .handling t => if t.connId = c then some t.index else none
  | .handled t _ => if t.connId = c then some t.index else none
  | .enqueueing t => t.ends c
  | .delivering m => m.ends c
  | .delivered m => m.ends c
  | _ => none

def PostDeliveryEvent.ends (c : ConnId) (e : PostDeliveryEvent) : Option Nat :=
  if e.connId = c ∧ e.finishCurrentRequest = true then some e.index else none

def IoOp.ends (c : ConnId) : IoOp → Option Nat
  | .respond t => t.ends c
  | .event e => e.ends c
  | _ => none

def RespLocals.ends (c : ConnId) (loc : RespLocals) : Option Nat :=
  if loc.task.connId = c ∧ loc.deferred = false then some loc.task.index else none

def Io.ends (c : ConnId) : Io → List Nat
  | .drain ops => ops.filterMap (IoOp.ends c)
  | .round _ loc ops => (loc.ends c).toList ++ ops.filterMap (IoOp.ends c)
  | .submitNext _ _ ops => ops.filterMap (IoOp.ends c)
  | _ => []

/-- The request whose response round the I/O thread is in. -/
def Io.rounds (c : ConnId) : Io → List Nat
  | .round _ loc _ => if loc.task.connId = c then [loc.task.index] else []
  | _ => []

namespace Server

/-- The requests of `c` some pending step will end: a handler task, its
response, a mark task of the deferred kind or its event, each wherever it is. -/
def pendingEnds (s : Server) (c : ConnId) : List Nat :=
  s.tasks.filterMap (Job.ends c) ++ (s.workers.filterMap (Worker.ends c) ++
    (s.completedTasks.filterMap (ResponseTask.ends c) ++
      (s.postDeliveryEvents.filterMap (PostDeliveryEvent.ends c) ++ s.io.ends c)))

/-- The requests of `c` between their submission and the end of their
processing by the I/O thread. -/
def inProcess (s : Server) (c : ConnId) : List Nat := s.pendingEnds c ++ s.io.rounds c

end Server

/-! ## Fences and wake-ups -/

def MarkTask.fences (c : ConnId) (m : MarkTask) : Bool := m.connId = c && !m.finish

def Job.fences (c : ConnId) : Job → Bool
  | .mark m => m.fences c
  | _ => false

def Worker.fences (c : ConnId) : Worker → Bool
  | .delivering m => m.fences c
  | .delivered m => m.fences c
  | .found d => d = c
  | _ => false

def Io.fences (c : ConnId) : Io → Nat
  | .round (.crossSubmit target _ _) _ _ => if target = c then 1 else 0
  | _ => 0

def Worker.wakes (c : ConnId) : Worker → Bool
  | .released d => d = c
  | _ => false

def PostDeliveryEvent.wakes (c : ConnId) (e : PostDeliveryEvent) : Bool :=
  e.connId = c && !e.finishCurrentRequest

def IoOp.wakes (c : ConnId) : IoOp → Bool
  | .event e => e.wakes c
  | _ => false

/-- The operations the I/O thread has still to do. -/
def Io.ops : Io → List IoOp
  | .drain ops => ops
  | .round _ _ ops => ops
  | .submitNext _ _ ops => ops
  | _ => []

namespace Server

/-- The cross-connection mark tasks of `c` that have not decremented its
counter yet: queued, running, or just being submitted. -/
def outstandingMarks (s : Server) (c : ConnId) : Nat :=
  s.tasks.countP (Job.fences c) + (s.workers.countP (Worker.fences c) + s.io.fences c)

/-- The post-delivery events of `c` that will look at its queue again: queued,
in the I/O thread's hands, or about to be enqueued by a worker that has just
decremented the counter. -/
def wakeUps (s : Server) (c : ConnId) : Nat :=
  s.workers.countP (Worker.wakes c) +
    (s.postDeliveryEvents.countP (PostDeliveryEvent.wakes c) + s.io.ops.countP (IoOp.wakes c))

end Server

/-! ## The lists and counts are what the lane holds -/

namespace Share

/-- The requests the tokens of a share are about. -/
def endsHom : Share →+ Multiset ℕ :=
  (Multiset.mapAddMonoidHom Token.index).comp (AddMonoidHom.fst _ _)

def fencesHom : Share →+ ℕ := (AddMonoidHom.fst ℕ ℕ).comp (AddMonoidHom.snd _ _)

def wakesHom : Share →+ ℕ := (AddMonoidHom.snd ℕ ℕ).comp (AddMonoidHom.snd _ _)

@[simp] theorem endsHom_token (t : Token) : endsHom (token t) = {t.index} := rfl

@[simp] theorem endsHom_fence : endsHom fence = 0 := rfl

@[simp] theorem endsHom_wake : endsHom wake = 0 := rfl

@[simp] theorem fencesHom_token (t : Token) : fencesHom (token t) = 0 := rfl

@[simp] theorem fencesHom_fence : fencesHom fence = 1 := rfl

@[simp] theorem fencesHom_wake : fencesHom wake = 0 := rfl

@[simp] theorem wakesHom_token (t : Token) : wakesHom (token t) = 0 := rfl

@[simp] theorem wakesHom_fence : wakesHom fence = 0 := rfl

@[simp] theorem wakesHom_wake : wakesHom wake = 1 := rfl

variable {α : Type} {share : α → Share}

theorem endsHom_load {ends : α → Option ℕ}
    (h : ∀ a, endsHom (share a) = ((ends a).toList : Multiset ℕ)) (l : List α) :
    endsHom (load share l) = (l.filterMap ends : List ℕ) := by
  rw [Base.map_load, funext h, Base.load_toList_eq_filterMap]

/-- The same for a count, of which the weights are one and nothing. -/
theorem countHom_load {φ : Share →+ ℕ} {p : α → Bool}
    (h : ∀ a, φ (share a) = if p a then 1 else 0) (l : List α) :
    φ (load share l) = l.countP p := by
  rw [Base.map_load, funext h, Base.load_ite_eq_countP]

/-- And for one no weight takes part in. -/
theorem countHom_load_zero {φ : Share →+ ℕ} (h : ∀ a, φ (share a) = 0) (l : List α) :
    φ (load share l) = 0 := by
  rw [Base.map_load]
  exact Base.load_eq_zero _ fun a _ => h a

end Share

open Share

section

variable (c : ConnId)

theorem MarkTask.share_ends (m : MarkTask) :
    endsHom (m.share c) = ((m.ends c).toList : Multiset ℕ) := by
  unfold MarkTask.share MarkTask.ends
  by_cases hc : m.connId = c <;> cases hf : m.finish <;> simp [hc]

theorem ResponseTask.share_ends (t : ResponseTask) :
    endsHom (t.share c) = ((t.ends c).toList : Multiset ℕ) := by
  unfold ResponseTask.share ResponseTask.ends
  split <;> simp

theorem PostDeliveryEvent.share_ends (e : PostDeliveryEvent) :
    endsHom (e.share c) = ((e.ends c).toList : Multiset ℕ) := by
  unfold PostDeliveryEvent.share PostDeliveryEvent.ends
  by_cases hc : e.connId = c <;> cases hf : e.finishCurrentRequest <;> simp [hc]

theorem Job.share_ends (j : Job) : endsHom (j.share c) = ((j.ends c).toList : Multiset ℕ) := by
  cases j with
  | request t =>
    simp only [Job.share, Job.ends]
    split <;> simp
  | mark m => exact m.share_ends c
  | cleanup d => simp [Job.share, Job.ends]

theorem Worker.share_ends (w : Worker) :
    endsHom (w.share c) = ((w.ends c).toList : Multiset ℕ) := by
  cases w with
  | enqueueing t => exact t.share_ends c
  | delivering m => exact m.share_ends c
  | delivered m => exact m.share_ends c
  | _ =>
    simp only [Worker.share, Worker.ends]
    try split
    all_goals simp

theorem IoOp.share_ends (op : IoOp) :
    endsHom (op.share c) = ((op.ends c).toList : Multiset ℕ) := by
  cases op with
  | respond t => exact t.share_ends c
  | event e => exact e.share_ends c
  | _ => simp [IoOp.share, IoOp.ends]

theorem RoundPos.share_ends (pos : RoundPos) : endsHom (pos.share c) = 0 := by
  cases pos <;> simp only [RoundPos.share, map_zero]
  split <;> simp

theorem RespLocals.share_ends (loc : RespLocals) :
    endsHom (loc.share c) = ((loc.ends c).toList : Multiset ℕ) := by
  unfold RespLocals.share RespLocals.ends
  split <;> simp

theorem Io.share_ends (io : Io) : endsHom (io.share c) = (io.ends c : Multiset ℕ) := by
  cases io with
  | drain ops | submitNext d p ops => exact endsHom_load (IoOp.share_ends c) ops
  | round pos loc ops =>
    simp only [Io.share, Io.ends, map_add, pos.share_ends c, loc.share_ends c,
      endsHom_load (IoOp.share_ends c) ops, zero_add, Multiset.coe_add]
  | _ => simp [Io.share, Io.ends]

/-- The tokens of the lane are about the requests whose end is pending. -/
theorem Server.held_ends (s : Server) :
    (s.held c).1.map Token.index = (s.pendingEnds c : Multiset ℕ) := by
  have h : endsHom (s.held c) = (s.pendingEnds c : Multiset ℕ) := by
    simp only [Server.held, Server.queued, map_add, s.io.share_ends c,
      endsHom_load (Job.share_ends c), endsHom_load (Worker.share_ends c),
      endsHom_load (ResponseTask.share_ends c), endsHom_load (PostDeliveryEvent.share_ends c),
      Server.pendingEnds, ← Multiset.coe_add]
    abel
  exact h

theorem MarkTask.share_fences (m : MarkTask) :
    fencesHom (m.share c) = if m.fences c then 1 else 0 := by
  unfold MarkTask.share MarkTask.fences
  by_cases hc : m.connId = c <;> cases hf : m.finish <;> simp [hc]

theorem Job.share_fences (j : Job) : fencesHom (j.share c) = if j.fences c then 1 else 0 := by
  cases j with
  | request t =>
    simp only [Job.share, Job.fences]
    split <;> simp
  | mark m => exact m.share_fences c
  | cleanup d => simp [Job.share, Job.fences]

theorem ResponseTask.share_no_fence (t : ResponseTask) : fencesHom (t.share c) = 0 := by
  unfold ResponseTask.share
  split <;> simp

theorem PostDeliveryEvent.share_no_fence (e : PostDeliveryEvent) :
    fencesHom (e.share c) = 0 := by
  unfold PostDeliveryEvent.share
  repeat' split
  all_goals simp

theorem Worker.share_fences (w : Worker) :
    fencesHom (w.share c) = if w.fences c then 1 else 0 := by
  cases w with
  | enqueueing t => exact t.share_no_fence c
  | delivering m => exact m.share_fences c
  | delivered m => exact m.share_fences c
  | found d =>
    simp only [Worker.share, Worker.fences]
    split <;> simp_all
  | _ =>
    simp only [Worker.share, Worker.fences]
    try split
    all_goals simp

theorem IoOp.share_no_fence (op : IoOp) : fencesHom (op.share c) = 0 := by
  cases op with
  | respond t => exact t.share_no_fence c
  | event e => exact e.share_no_fence c
  | _ => simp [IoOp.share]

theorem Io.share_fences (io : Io) : fencesHom (io.share c) = io.fences c := by
  cases io with
  | drain ops | submitNext d p ops => exact countHom_load_zero (IoOp.share_no_fence c) ops
  | round pos loc ops =>
    have hloc : fencesHom (loc.share c) = 0 := by
      unfold RespLocals.share
      split <;> simp
    simp only [Io.share, map_add, hloc, countHom_load_zero (IoOp.share_no_fence c) ops, add_zero]
    cases pos with
    | crossSubmit target ids userId =>
      simp only [RoundPos.share, Io.fences]
      split <;> simp
    | _ => simp [RoundPos.share, Io.fences]
  | _ => simp [Io.share, Io.fences]

/-- The fences of the lane are the outstanding mark tasks. -/
theorem Server.held_fences (s : Server) : (s.held c).2.1 = s.outstandingMarks c := by
  have h : fencesHom (s.held c) = s.outstandingMarks c := by
    simp only [Server.held, Server.queued, map_add, s.io.share_fences c,
      countHom_load (Job.share_fences c), countHom_load (Worker.share_fences c),
      countHom_load_zero (ResponseTask.share_no_fence c),
      countHom_load_zero (PostDeliveryEvent.share_no_fence c), Server.outstandingMarks]
    omega
  exact h

theorem MarkTask.share_no_wake (m : MarkTask) : wakesHom (m.share c) = 0 := by
  unfold MarkTask.share
  repeat' split
  all_goals simp

theorem Job.share_no_wake (j : Job) : wakesHom (j.share c) = 0 := by
  cases j with
  | request t =>
    simp only [Job.share]
    split <;> simp
  | mark m => exact m.share_no_wake c
  | cleanup d => simp [Job.share]

theorem ResponseTask.share_no_wake (t : ResponseTask) : wakesHom (t.share c) = 0 := by
  unfold ResponseTask.share
  split <;> simp

theorem PostDeliveryEvent.share_wakes (e : PostDeliveryEvent) :
    wakesHom (e.share c) = if e.wakes c then 1 else 0 := by
  unfold PostDeliveryEvent.share PostDeliveryEvent.wakes
  by_cases hc : e.connId = c <;> cases hf : e.finishCurrentRequest <;> simp [hc]

theorem Worker.share_wakes (w : Worker) : wakesHom (w.share c) = if w.wakes c then 1 else 0 := by
  cases w with
  | enqueueing t => exact t.share_no_wake c
  | delivering m => exact m.share_no_wake c
  | delivered m => exact m.share_no_wake c
  | released d =>
    simp only [Worker.share, Worker.wakes]
    split <;> simp_all
  | _ =>
    simp only [Worker.share, Worker.wakes]
    try split
    all_goals simp

theorem IoOp.share_wakes (op : IoOp) : wakesHom (op.share c) = if op.wakes c then 1 else 0 := by
  cases op with
  | respond t => exact t.share_no_wake c
  | event e => exact e.share_wakes c
  | _ => simp [IoOp.share, IoOp.wakes]

theorem Io.share_wakes (io : Io) : wakesHom (io.share c) = io.ops.countP (IoOp.wakes c) := by
  cases io with
  | drain ops | submitNext d p ops => exact countHom_load (IoOp.share_wakes c) ops
  | round pos loc ops =>
    have hloc : wakesHom (loc.share c) = 0 := by
      unfold RespLocals.share
      split <;> simp
    have hpos : wakesHom (pos.share c) = 0 := by
      cases pos <;> simp only [RoundPos.share, map_zero]
      split <;> simp
    simp only [Io.share, Io.ops, map_add, hloc, hpos, countHom_load (IoOp.share_wakes c) ops,
      zero_add]
  | _ => simp [Io.share, Io.ops]

/-- The wake-ups of the lane. -/
theorem Server.held_wakes (s : Server) : (s.held c).2.2 = s.wakeUps c := by
  have h : wakesHom (s.held c) = s.wakeUps c := by
    simp only [Server.held, Server.queued, map_add, s.io.share_wakes c,
      countHom_load_zero (Job.share_no_wake c), countHom_load (Worker.share_wakes c),
      countHom_load_zero (ResponseTask.share_no_wake c),
      countHom_load (PostDeliveryEvent.share_wakes c), Server.wakeUps]
    omega
  exact h

end

end ChatServer.Net
