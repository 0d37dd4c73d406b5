import ChatServer.Net.Roster

/-!
# Remote pushes in the server

What the steps of the server do to remote pushes:

* `remoteWork_ioStep` — how the pushes waiting in `remote_push_tasks_` and those
  taken by the I/O thread change: they are taken once, in order, and dealt with
  from the front;
* `Server.Unsent` — no byte of an event in a connection's trace has been sent;
  for a closed connection this is for good (`keeps_of_step`).
-/

namespace ChatServer.Net

open ChatServer.Codec

def IoOp.remotePush : IoOp → Option RemotePush
  | .remote e => some e
  | _ => none

namespace Io

/-- The remote pushes the I/O thread has taken and not begun. -/
def remotes (io : Io) : List RemotePush := io.ops.filterMap IoOp.remotePush

/-- The next step is about a remote push. -/
def atRemote : Io → Bool
  | .drain (.remote _ :: _) => true
  | _ => false

/-- The next step takes `remote_push_tasks_`. -/
def takesRemote : Io → Bool
  | .drain (.takeRemote :: _) => true
  | _ => false

theorem of_atRemote {io : Io} (h : io.atRemote = true) :
    ∃ e ops, io = .drain (.remote e :: ops) := by
  unfold atRemote at h
  split at h
  · exact ⟨_, _, rfl⟩
  · cases h

end Io

namespace Server

variable {s s' : Server} {c d : ConnId} {env : Env}

/-! ## The backlog -/

theorem closeClientFd_remotePushTasks (b : Bool) :
    (s.closeClientFd d b).remotePushTasks = s.remotePushTasks := by
  unfold closeClientFd
  split
  · cases b <;> rfl
  · rfl

theorem submitRequestTask_remotePushTasks {p : Bytes} {b : Bool}
    (h : s.submitRequestTask d p b = some s') : s'.remotePushTasks = s.remotePushTasks := by
  unfold submitRequestTask at h
  split at h
  · cases h
  · cases h
    rfl

/-- The pushes waiting and the pushes taken. -/
def remoteWork (s : Server) : List RemotePush × List RemotePush :=
  (s.remotePushTasks, s.io.remotes)

/-- A step that leaves the queue alone and has the rounds `ops` ahead. -/
theorem remoteWork_eq {ops : List IoOp} (htasks : s'.remotePushTasks = s.remotePushTasks)
    (hops : s'.io.ops = ops) :
    s'.remoteWork = (s.remotePushTasks, ops.filterMap IoOp.remotePush) := by
  unfold remoteWork Io.remotes
  rw [htasks, hops]

/-- Outside the rounds no push is taken. -/
theorem remoteWork_none (htasks : s'.remotePushTasks = s.remotePushTasks) (hops : s'.io.ops = [])
    (hnone : s.io.ops = []) : s'.remoteWork = s.remoteWork := by
  rw [remoteWork_eq htasks hops, remoteWork_eq (s := s) rfl hnone]

/-- Taking another queue adds no push. -/
theorem remotes_append {α : Type} {f : α → IoOp} (hf : ∀ a, (f a).remotePush = none) (xs : List α)
    (ops : List IoOp) : (Io.drain (xs.map f ++ ops)).remotes = (Io.drain ops).remotes := by
  have hnone : (xs.map f).filterMap IoOp.remotePush = [] := by
    rw [List.filterMap_map]
    exact List.filterMap_eq_nil_iff.mpr fun a _ => hf a
  show (xs.map f ++ ops).filterMap IoOp.remotePush = _
  rw [List.filterMap_append, hnone, List.nil_append]
  rfl

/-- A step of the I/O thread takes all waiting pushes, deals with the first one
taken, or leaves both alone. -/
theorem remoteWork_ioStep (h : s.ioStep env = some s') :
    s'.remoteWork =
      if s.io.takesRemote then ([], s.remotePushTasks ++ s.io.remotes)
      else (s.remotePushTasks, if s.io.atRemote then s.io.remotes.tail else s.io.remotes) := by
  obtain ⟨t, io', hstep, rfl⟩ := ioStep_cases h
  -- all but two kinds of steps leave both alone
  have hquiet : ∀ {io : Io}, s.io = io → io.takesRemote = false → io.atRemote = false →
      t.remotePushTasks = s.remotePushTasks → io'.remotes = io.remotes →
      ({ t with io := io' } : Server).remoteWork =
        if s.io.takesRemote then ([], s.remotePushTasks ++ s.io.remotes)
        else (s.remotePushTasks, if s.io.atRemote then s.io.remotes.tail else s.io.remotes) := by
    intro io hio htakes hat htasks hremotes
    subst hio
    rw [htakes, hat]
    exact Prod.ext htasks hremotes
  cases hstep with
  | @takeRemote ops hio =>
    have hmap : (s.remotePushTasks.map IoOp.remote).filterMap IoOp.remotePush =
        s.remotePushTasks := by
      rw [List.filterMap_map]
      exact List.filterMap_some
    rw [hio]
    show ([], (s.remotePushTasks.map IoOp.remote ++ ops).filterMap IoOp.remotePush) = _
    rw [List.filterMap_append, hmap]
    rfl
  | remoteSkipped hio | remotePushed hio =>
    rw [hio]
    rfl
  | remoteFailed hio =>
    rw [hio]
    exact Prod.ext (closeClientFd_remotePushTasks _) rfl
  | takeCompleted hio | takeEvents hio =>
    exact hquiet hio rfl rfl rfl (remotes_append (fun _ => rfl) _ _)
  | readSubmitted hio hsub | nextSubmitted hio hsub =>
    exact hquiet hio rfl rfl (submitRequestTask_remotePushTasks hsub) rfl
  | readError hio | oversized _ hio | readRefused hio | writeError hio | respondClosed hio
  | respondFailed hio | nextRefused hio | pushFailed hio =>
    exact hquiet hio rfl rfl (closeClientFd_remotePushTasks _) rfl
  | packet hio =>
    refine hquiet hio rfl rfl rfl ?_
    split <;> rfl
  | eventFinished hio | eventWoke hio | finished hio =>
    refine hquiet hio rfl rfl rfl ?_
    unfold afterPop
    split <;> rfl
  | readNothing hio | received _ hio | packetsDone hio | packetEmpty hio | writeNothing hio
  | wrote _ hio | drained hio | respondGone hio | respondSilent hio | responded hio
  | respondedDeferred hio | eventGone hio | sessionNone hio | sessionBound hio
  | sessionUnbound hio | pushesDone hio | pushSkipped hio | pushed hio | crossDone hio
  | crossGone hio | crossRaised _ _ hio | crossSubmitted hio | crossRefused hio | sameNone hio
  | sameDeferred hio | finishDeferred hio => exact hquiet hio rfl rfl rfl rfl

theorem workerStep_remotePushTasks {i : Nat} {o : Option HandleResult}
    (h : s.workerStep i o = some s') :
    s'.remotePushTasks = s.remotePushTasks ∧ s'.stopping = s.stopping := by
  unfold workerStep enqueueResponseTask at h
  repeat' split at h
  all_goals cases h
  all_goals exact ⟨rfl, rfl⟩

theorem takeTask_remotePushTasks (h : s.takeTask = some s') :
    s'.remotePushTasks = s.remotePushTasks ∧ s'.stopping = s.stopping := by
  unfold takeTask at h
  repeat' split at h
  all_goals cases h
  all_goals exact ⟨rfl, rfl⟩

/-- The steps of the workers and the events of `epoll_wait` leave both alone. -/
theorem remoteWork_step {l : Label} (h : s.step l = some s') (hio : ∀ env, l ≠ .io env)
    (hpush : ∀ e, l ≠ .remotePush e) (hstop : l ≠ .stop) : s'.remoteWork = s.remoteWork := by
  cases l with
  | io env => exact absurd rfl (hio env)
  | remotePush e => exact absurd rfl (hpush e)
  | stop => exact absurd rfl hstop
  | take => exact remoteWork_eq (takeTask_remotePushTasks h).1 (congrArg Io.ops (takeTask_io h).1)
  | worker i o =>
    exact remoteWork_eq (workerStep_remotePushTasks h).1 (congrArg Io.ops (workerStep_io h).2.1)
  | accept peerIp =>
    obtain ⟨-, ⟨⟩⟩ := Option.ite_none_right_eq_some.mp h
    rfl
  | readable d | writable d =>
    obtain ⟨hidle, h⟩ := Option.ite_none_right_eq_some.mp h
    obtain ⟨-, ⟨⟩⟩ := Option.ite_none_right_eq_some.mp h
    exact remoteWork_none rfl rfl (congrArg Io.ops hidle)
  | workerResult =>
    obtain ⟨hidle, ⟨⟩⟩ := Option.ite_none_right_eq_some.mp h
    have hwork : s.remoteWork = (s.remotePushTasks, []) :=
      remoteWork_eq rfl (congrArg Io.ops hidle)
    rw [hwork]
    rfl
  | close d reason b =>
    obtain ⟨-, h⟩ := Option.ite_none_right_eq_some.mp h
    obtain ⟨-, ⟨⟩⟩ := Option.ite_none_right_eq_some.mp h
    exact remoteWork_eq (closeClientFd_remotePushTasks b) (congrArg Io.ops (closeClientFd_io b))

end Server

/-! ## What was sent -/

namespace Lane

variable {c : ConnId} {ok : HandleResult → Prop} {L L' L'' : Lane}

/-- The trace grows, and a closed connection stays closed and sends nothing. -/
structure Grows (L L' : Lane) : Prop where
  trace : L.history.trace <+: L'.history.trace
  closed : L.live = false → L'.live = false ∧ L'.history.sent = L.history.sent

theorem Grows.refl (L : Lane) : L.Grows L := ⟨List.prefix_refl _, fun h => ⟨h, rfl⟩⟩

theorem Grows.trans (h : L.Grows L') (h' : L'.Grows L'') : L.Grows L'' := by
  refine ⟨h.trace.trans h'.trace, fun hlive => ?_⟩
  obtain ⟨hlive', hsent⟩ := h.closed hlive
  obtain ⟨hlive'', hsent'⟩ := h'.closed hlive'
  exact ⟨hlive'', hsent'.trans hsent⟩

theorem Move.grows (h : Move c ok L L') : L.Grows L' := by
  cases h with
  | start | result | answer | session => exact ⟨List.prefix_append _ _, fun h => ⟨h, rfl⟩⟩
  | push payload hlive =>
    refine ⟨List.prefix_append _ _, fun h => ?_⟩
    rw [hlive] at h
    cases h
  | write n hlive =>
    refine ⟨List.prefix_refl _, fun h => ?_⟩
    rw [hlive] at h
    cases h
  | close => exact ⟨List.prefix_refl _, fun _ => ⟨rfl, rfl⟩⟩
  | lose x _ hdead hhist =>
    exact ⟨hhist ▸ List.prefix_refl _, fun _ => ⟨hdead, congrArg History.sent hhist⟩⟩
  | _ => exact ⟨List.prefix_refl _, fun h => ⟨h, rfl⟩⟩

theorem Moves.grows (h : Moves c ok L L') : L.Grows L' :=
  Moves.keep (P := fun L' => L.Grows L') (fun _ _ hg hm => hg.trans hm.grows) h (Grows.refl L)

end Lane

/-- A place in the trace of a connection. -/
structure Spot where
  connId : ConnId
  index : Nat
  deriving DecidableEq, Repr

namespace Server

variable {s s' : Server} {c : ConnId} {l : Label}

theorem grows_step (hs : s.Sound) (h : s.step l = some s')
    (hnew : c ≠ s.nextConnId ∨ ∀ peerIp, l ≠ .accept peerIp) :
    (s.lane c).Grows (s'.lane c) := by
  have hok : HandlerOk (fun _ _ => True) s l := fun _ _ _ _ _ => trivial
  exact (lane_step hs hok h hnew).grows

theorem nextConnId_le (h : s.step l = some s') : s.nextConnId ≤ s'.nextConnId := by
  by_cases hacc : ∃ peerIp, l = .accept peerIp
  · obtain ⟨peerIp, rfl⟩ := hacc
    obtain ⟨-, ⟨⟩⟩ := Option.ite_none_right_eq_some.mp h
    exact Nat.le_succ _
  · exact (step_nextConnId h fun peerIp hl => hacc ⟨peerIp, hl⟩).ge

/-- Connection ids are given out in order. -/
theorem registered_lt (hs : lts.Reachable s) (hc : s.registered c = true) : c < s.nextConnId := by
  refine Base.Lts.Inductive.relative (J := Sound)
    (I := fun s => ∀ c, s.registered c = true → c < s.nextConnId)
    (fun s hs => sound_inductive.invariant hs) ?_ ?_ hs c hc
  · rintro s rfl c hc
    cases hc
  · intro s l s' hsound _ h _ hstep c hc
    by_cases hnew : c ≠ s.nextConnId ∨ ∀ peerIp, l ≠ .accept peerIp
    · have hold : s.registered c = true := by
        by_contra hno
        have hclosed := (grows_step hsound hstep hnew).closed (Bool.eq_false_iff.mpr hno)
        exact absurd hc (Bool.eq_false_iff.mp hclosed.1)
      exact Nat.lt_of_lt_of_le (h c hold) (nextConnId_le hstep)
    · -- the connection accepted now
      push Not at hnew
      obtain ⟨rfl, peerIp, rfl⟩ := hnew
      obtain ⟨-, ⟨⟩⟩ := Option.ite_none_right_eq_some.mp hstep
      exact Nat.lt_succ_self _

/-- The event there is a push of the payload. -/
structure Pushed (s : Server) (payload : Bytes) (spot : Spot) : Prop where
  known : spot.connId < s.nextConnId
  event : (s.history spot.connId).trace[spot.index]? = some (.push payload)

/-- No byte of the event there has been sent. -/
def Unsent (s : Server) (spot : Spot) : Prop :=
  (s.history spot.connId).sent <+:
    ((s.history spot.connId).trace.take spot.index).flatMap Event.output

/-- No byte of the event there will ever be sent. -/
structure Lost (s : Server) (spot : Spot) : Prop where
  closed : s.registered spot.connId = false
  unsent : s.Unsent spot

/-- Pushes stay where they are, and lost ones stay lost. -/
def Keeps (s s' : Server) : Prop :=
  ∀ payload spot, s.Pushed payload spot → s'.Pushed payload spot ∧ (s.Lost spot → s'.Lost spot)

theorem keeps_of_step (hs : s.Sound) (h : s.step l = some s') : s.Keeps s' := by
  intro payload spot hp
  have hgrows := grows_step hs h (.inl (Nat.ne_of_lt hp.known))
  obtain ⟨more, hmore⟩ := hgrows.trace
  have hmore : (s.history spot.connId).trace ++ more = (s'.history spot.connId).trace := hmore
  obtain ⟨hlt, -⟩ := List.getElem?_eq_some_iff.mp hp.event
  refine ⟨⟨Nat.lt_of_lt_of_le hp.known (nextConnId_le h), ?_⟩, fun hl => ?_⟩
  · rw [← hmore, List.getElem?_append_left hlt]
    exact hp.event
  · obtain ⟨hclosed, hsent⟩ := hgrows.closed hl.closed
    have hsent : (s'.history spot.connId).sent = (s.history spot.connId).sent := hsent
    refine ⟨hclosed, ?_⟩
    -- what is before the push stays as it is
    unfold Unsent
    rw [hsent, ← hmore, List.take_append_of_le_length (Nat.le_of_lt hlt)]
    exact hl.unsent

/-- The queue and the flag of `stop()` have no part in this. -/
theorem keeps_of_queue (stopping : Bool) (tasks : List RemotePush) :
    s.Keeps { s with stopping := stopping, remotePushTasks := tasks } :=
  fun _ _ hp => ⟨⟨hp.known, hp.event⟩, fun hl => ⟨hl.closed, hl.unsent⟩⟩

/-- The push of a claimed task whose target is bound and registered is
appended; if the writable event cannot be enabled the connection is closed and
the push lost. -/
theorem pushed_remoteOp {e : RemotePush} (ops : List IoOp) (env : Env) (hs : lts.Reachable s)
    (hreached : (env.claimed && env.bound && s.registered e.targetConnectionId) = true) :
    let spot : Spot := ⟨e.targetConnectionId, (s.history e.targetConnectionId).trace.length⟩
    (s.remoteOp e ops env).Pushed e.payload spot ∧
      (env.writable = false → (s.remoteOp e ops env).Lost spot) := by
  intro spot
  have hreg : s.registered e.targetConnectionId = true := (Bool.and_eq_true_iff.mp hreached).2
  have hknown : e.targetConnectionId < s.nextConnId := registered_lt hs hreg
  have hany : lts.Reach (HandlerOk fun _ _ => True) s := hs.mono fun _ _ _ _ _ _ _ _ => trivial
  have hsent : (s.history e.targetConnectionId).sent <+:
      (s.history e.targetConnectionId).trace.flatMap Event.output :=
    ⟨_, (lane_ordinary hany e.targetConnectionId).2.1 hreg⟩
  let pushed := (s.append e.targetConnectionId e.payload).record e.targetConnectionId
    (.push e.payload)
  have hpushed : pushed.history e.targetConnectionId =
      { s.history e.targetConnectionId with
        trace := (s.history e.targetConnectionId).trace ++ [.push e.payload] } :=
    Function.update_self ..
  unfold remoteOp
  simp only [hreached, if_true]
  cases env.writable with
  | true =>
    refine ⟨⟨hknown, ?_⟩, fun hno => nomatch hno⟩
    show (pushed.history e.targetConnectionId).trace[spot.index]? = _
    rw [hpushed]
    exact List.getElem?_concat_length
  | false =>
    have hhistory : (pushed.closeClientFd e.targetConnectionId env.cleanup).history
        e.targetConnectionId = _ := (congrFun (closeClientFd_history _) _).trans hpushed
    refine ⟨⟨?_, ?_⟩, fun _ => ⟨closeClientFd_registered_self _, ?_⟩⟩
    · have hpool := closeClientFd_pool (s := pushed) (d := e.targetConnectionId) env.cleanup
      exact hknown.trans_eq (congrArg (·.2.2) hpool).symm
    · show ((pushed.closeClientFd _ env.cleanup).history _).trace[spot.index]? = _
      rw [hhistory]
      exact List.getElem?_concat_length
    · show ((pushed.closeClientFd _ env.cleanup).history _).sent <+:
        (((pushed.closeClientFd _ env.cleanup).history _).trace.take spot.index).flatMap _
      rw [hhistory]
      simp only [spot, List.take_left]
      exact hsent

theorem stopping_step (h : s.step l = some s') (hstopping : s.stopping = true) :
    s'.stopping = true := by
  cases l with
  | io env => exact (congrArg (·.1) (ioStep_pool h)).trans hstopping
  | take => exact (takeTask_remotePushTasks h).2.trans hstopping
  | worker i o => exact (workerStep_remotePushTasks h).2.trans hstopping
  | remotePush e =>
    cases h
    exact hstopping
  | stop =>
    cases h
    rfl
  | close d reason b =>
    obtain ⟨-, h⟩ := Option.ite_none_right_eq_some.mp h
    obtain ⟨-, ⟨⟩⟩ := Option.ite_none_right_eq_some.mp h
    exact (congrArg (·.1) (closeClientFd_pool b)).trans hstopping
  | accept | workerResult =>
    obtain ⟨-, ⟨⟩⟩ := Option.ite_none_right_eq_some.mp h
    exact hstopping
  | readable | writable =>
    obtain ⟨-, h⟩ := Option.ite_none_right_eq_some.mp h
    obtain ⟨-, ⟨⟩⟩ := Option.ite_none_right_eq_some.mp h
    exact hstopping

theorem reachable_of_step (hs : lts.Reachable s) (h : s.step l = some s') : lts.Reachable s' :=
  .step hs trivial h

/-- Pushes may come in at any time. -/
theorem reachable_requeue (hs : lts.Reachable s) (es : List RemotePush) :
    lts.Reachable { s with remotePushTasks := s.remotePushTasks ++ es } := by
  induction es generalizing s with
  | nil =>
    rw [List.append_nil]
    exact hs
  | cons e es ih =>
    have hnext : lts.Reachable { s with remotePushTasks := s.remotePushTasks ++ [e] } :=
      reachable_of_step hs (l := .remotePush e) rfl
    have hrest := ih hnext
    simpa only [List.append_assoc, List.singleton_append] using hrest

/-- `stop()` before it has taken the waiting pushes. -/
theorem reachable_stopping (hs : lts.Reachable s) : lts.Reachable { s with stopping := true } := by
  have hstop : lts.Reachable { s with stopping := true, remotePushTasks := [] } :=
    reachable_of_step hs (l := .stop) rfl
  exact reachable_requeue hstop s.remotePushTasks

end Server
end ChatServer.Net
