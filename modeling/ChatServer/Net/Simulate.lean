import ChatServer.Net.Project
import ChatServer.Net.Sound

/-!
# The server simulates its lanes

Every step of the server is, for every connection, a sequence of moves of its
lane. The lemmas go through the step functions; `lane_step` collects them.
-/

namespace ChatServer.Net

open ChatServer.Codec ConnectionContext
open Lane (Moves Move)

namespace Server

variable {s : Server} {c d : ConnId} {ok : HandleResult → Prop}

/-! ## Closing -/

@[simp] theorem closeClientFd_registered_self (b : Bool) :
    (s.closeClientFd c b).registered c = false := by
  unfold closeClientFd
  split
  · cases b <;> simp [dispatchConnectionClosed, setContext, dropAuthenticated]
  · rename_i h
    simpa using h

@[simp] theorem closeClientFd_history (b : Bool) : (s.closeClientFd d b).history = s.history := by
  unfold closeClientFd
  split
  · cases b <;> rfl
  · rfl

@[simp] theorem closeClientFd_queued (b : Bool) :
    (s.closeClientFd d b).queued c = s.queued c := by
  unfold closeClientFd
  split
  · cases b
    · rfl
    · simp [dispatchConnectionClosed, setContext, dropAuthenticated, queued, Job.share]
  · rfl

theorem lane_closeClientFd_ne (h : c ≠ d) (b : Bool) :
    (s.closeClientFd d b).lane c = s.lane c := by
  unfold closeClientFd
  split
  · cases b <;>
      simp [dispatchConnectionClosed, setContext, dropAuthenticated, lane, held, queued,
        Job.share, h]
  · rfl

/-- What may happen to the lane of a connection that is closed when the I/O
thread goes on from `io'`. -/
structure Closing (s : Server) (c d : ConnId) (io' : Io) : Prop where
  other : c ≠ d → Io.Alike c s.io io'
  granted : c = d → io'.granted c = []
  unread : c = d → io'.unread c = []
  round : c = d → io'.roundOf c = none ∨ io'.roundOf c = s.io.roundOf c
  share : c = d → ∃ x, s.io.share c = x + io'.share c

variable {io' : Io} {env : Env} {s' : Server} {p : Bytes} {ops : List IoOp} {t : ResponseTask}
  {loc : RespLocals}

/-- Closing `d`, whatever became of its context, and going on from `io'`. -/
theorem moves_close_context (ctx : ConnectionContext) (b : Bool) (h : Closing s c d io') :
    Moves c ok (s.lane c)
      (({ (s.setContext d ctx).closeClientFd d b with io := io' } : Server).lane c) := by
  by_cases hcd : c = d
  · subst hcd
    obtain ⟨x, hx⟩ := h.share rfl
    refine Moves.gone x ?_ ?_ (.inl (h.granted rfl)) (.inl (h.unread rfl)) (h.round rfl) ?_
    · exact closeClientFd_registered_self b
    · exact congrFun (closeClientFd_history b) c
    · have hq : ({ (s.setContext c ctx).closeClientFd c b with io := io' } : Server).queued c =
          s.queued c := closeClientFd_queued b
      simp only [lane, held, hq, hx, add_assoc]
  · have hio : Io.Alike c ((s.setContext d ctx).closeClientFd d b).io io' := by
      rw [closeClientFd_io]
      exact h.other hcd
    exact .of_eq (by rw [lane_io hio, lane_closeClientFd_ne hcd, lane_setContext_ne hcd])

/-- Closing `d` and going on from `io'`. -/
theorem moves_close (b : Bool) (h : Closing s c d io') :
    Moves c ok (s.lane c) (({ s.closeClientFd d b with io := io' } : Server).lane c) := by
  have hctx : s.setContext d (s.contexts d) = s := by simp [setContext]
  have hmoves : Moves c ok (s.lane c) _ := moves_close_context (s.contexts d) b h
  rwa [hctx] at hmoves

/-- The position of the I/O thread does not matter to closing. -/
theorem closeClientFd_withIo (io : Io) (b : Bool) :
    ({ s with io := io } : Server).closeClientFd d b = { s.closeClientFd d b with io := io } := by
  unfold closeClientFd
  simp only
  split
  · cases b <;> rfl
  · rfl

/-- A connection that is not registered any more loses what `io'` does not
hold. -/
theorem moves_unregistered (hreg : s.registered d = false) (h : Closing s c d io') :
    Moves c ok (s.lane c) (({ s with io := io' } : Server).lane c) := by
  have hclosed : s.closeClientFd d true = s := by simp [closeClientFd, hreg]
  have hmoves : Moves c ok (s.lane c) _ := moves_close true h
  rwa [hclosed] at hmoves

/-- In `onReadable` and `onWritable` the I/O thread then goes back to
`epoll_wait`. -/
theorem closing_idle (h : c ≠ d → Io.Alike c s.io .idle) : Closing s c d .idle :=
  ⟨h, fun _ => rfl, fun _ => rfl, fun _ => .inl rfl,
    fun _ => ⟨s.io.share c, by simp [Io.share]⟩⟩

/-! ## `onReadable` and `onWritable` -/

theorem moves_received {chunk : Bytes} (hio : s.io = .reading d) (hreg : s.registered d = true)
    (hfeed : ((s.contexts d).packetCodec.feed chunk).ok = true) :
    Moves c ok (s.lane c)
      (({ (s.setContext d { s.contexts d with
            packetCodec := ((s.contexts d).packetCodec.feed chunk).codec }).setHistory d
          { s.history d with
            received := (s.history d).received ++ chunk
            framed := (s.history d).framed ++
              ((s.contexts d).packetCodec.feed chunk).packets.filter fun p => !p.isEmpty } with
        io := .packets d ((s.contexts d).packetCodec.feed chunk).packets } : Server).lane c) := by
  by_cases hcd : c = d
  · subst hcd
    refine .to (.recv chunk hreg ?_ ?_ hfeed) ?_
    · simp [lane, hio, Io.unread]
    · simp [lane, hio, Io.granted]
    · simp [lane, held, queued, setContext, setHistory, hio, Io.granted, Io.unread,
        Io.roundOf, Io.share]
  · refine .of_eq ?_
    simp [lane, held, queued, setContext, setHistory, hio, Io.granted, Io.unread,
      Io.roundOf, Io.share, hcd, Ne.symm hcd]

theorem moves_packet {rest : List Bytes} (hio : s.io = .packets d (p :: rest))
    (hp : p.isEmpty = false) :
    Moves c ok (s.lane c)
      (({ s.setContext d ((s.contexts d).startRequestOrQueue p).2 with
        io := if ((s.contexts d).startRequestOrQueue p).1 then .submitRead d p rest
          else .packets d rest } : Server).lane c) := by
  by_cases hcd : c = d
  · subst hcd
    refine .to (.packet p (rest.filter fun p => !p.isEmpty) ?_ ?_) ?_
    · simp [lane, hio, Io.unread, hp]
    · simp [lane, hio, Io.granted]
    · rcases startRequestOrQueue_cases (s.contexts c) p with ⟨_, _, _, h⟩ | ⟨_, h⟩ <;>
        simp [lane, held, queued, setContext, hio, h, Io.granted, Io.unread, Io.roundOf, Io.share]
  · refine .of_eq ?_
    cases (s.contexts d).startRequestOrQueue p with
    | mk granted ctx =>
      cases granted <;>
        simp [lane, held, queued, setContext, hio, Io.granted, Io.unread, Io.roundOf,
          Io.share, hcd, Ne.symm hcd]

/-- A submission, and where the I/O thread goes from there. -/
theorem moves_submit {b : Bool} (h : s.submitRequestTask d p b = some s')
    (hgr : s.io.granted d = [p])
    (hself : c = d → io'.granted c = [] ∧ io'.unread c = s.io.unread c ∧
      io'.roundOf c = s.io.roundOf c ∧ io'.share c = s.io.share c)
    (hother : c ≠ d → Io.Alike c s.io io') :
    Moves c ok (s.lane c) (({ s' with io := io' } : Server).lane c) := by
  unfold submitRequestTask at h
  split at h
  · cases h
  · rename_i hgo
    simp only [Bool.or_eq_true, Bool.not_eq_true', not_or, Bool.not_eq_true,
      Bool.not_eq_false] at hgo
    cases h
    have hq := queued_addTask (s := s) (c := c) (.request (s.requestTask d p))
    by_cases hcd : c = d
    · subst hcd
      obtain ⟨hg, hu, hr, hs⟩ := hself rfl
      refine .to (.submit p hgr hgo.1) (Lane.ext rfl rfl rfl ?_ hg hu hr ?_)
      · simp [lane, setHistory]
      · refine (congrArg (io'.share c + ·) hq).trans ?_
        simp only [hs, Job.share, requestTask, if_true, lane, held]
        abel
    · have hio := hother hcd
      refine .of_eq (Lane.ext rfl rfl rfl ?_ hio.granted hio.unread hio.round ?_)
      · simp [lane, setHistory, hcd]
      · refine (congrArg (io'.share c + ·) hq).trans ?_
        simp [hio.share, Job.share, requestTask, Ne.symm hcd, lane, held]

theorem moves_wrote (n : Nat) (hio : s.io = .writing d) (hreg : s.registered d = true) :
    Moves c ok (s.lane c)
      (({ (s.setContext d ((s.contexts d).consumePendingSend n)).setHistory d
          { s.history d with sent := (s.history d).sent ++ (s.contexts d).pendingSend.take n } with
        io := .writing d } : Server).lane c) := by
  rw [← hio]
  show Moves c ok (s.lane c) (((s.setContext d _).setHistory d _).lane c)
  by_cases hcd : c = d
  · subst hcd
    refine .to (.write n hreg) ((lane_setHistory_self _).trans ?_)
    rw [lane_setContext_self]
    rfl
  · exact .of_eq ((lane_setHistory_ne hcd _).trans (lane_setContext_ne hcd _))

/-! ## Rounds of `onWorkerResultReadable` -/

/-- A push reaches the send buffer of a registered connection. -/
theorem moves_push (payload : Bytes) (hreg : s.registered d = true) :
    Moves c ok (s.lane c) ((s.pushTo d payload).lane c) := by
  by_cases hcd : c = d
  · subst hcd
    refine .to (.push payload hreg) ?_
    simp [pushTo, append, Lane.record]
    rfl
  · exact .of_eq (by simp [pushTo, append, hcd])

/-- A push that cannot be sent closes its target; the I/O thread goes on. -/
theorem moves_pushClose (payload : Bytes) (b : Bool) (hreg : s.registered d = true)
    (h : Io.Alike c s.io io') (hgranted : io'.granted c = []) (hunread : io'.unread c = []) :
    Moves c ok (s.lane c)
      (({ (s.pushTo d payload).closeClientFd d b with io := io' } : Server).lane c) :=
  .trans (moves_push payload hreg) (moves_close _ ⟨fun _ => h, fun _ => hgranted, fun _ => hunread,
    fun _ => .inr h.round, fun _ => ⟨0, by rw [zero_add]; exact h.share.symm⟩⟩)

/-- Other connections do not notice that a response is taken up. -/
theorem respond_alike (hio : s.io = .drain (.respond t :: ops)) (h : c ≠ t.connId) :
    Io.Alike c s.io (.round .session (locals t false) ops) := by
  have hne := Ne.symm h
  rw [hio]
  refine ⟨?_, ?_, rfl, rfl⟩
  · simp [Io.share, IoOp.share, ResponseTask.share, RoundPos.share, RespLocals.share, locals, hne]
  · simp [Io.roundOf, locals, hne]

theorem held_respond (hio : s.io = .drain (.respond t :: ops)) (hopen : t.closeAfter = false) :
    (s.lane t.connId).held = Share.token ⟨t.index, .ran (some t.result)⟩ +
      (Base.load (IoOp.share t.connId) ops + s.queued t.connId) := by
  simp [lane, held, hio, Io.share, IoOp.share, ResponseTask.share, ResponseTask.outcome, hopen,
    add_assoc]

/-- Taking up a response: the round begins, and the response, if there is one,
is in the send buffer. -/
theorem moves_answer (hio : s.io = .drain (.respond t :: ops)) (hopen : t.closeAfter = false)
    (hr : t.result.response ≠ []) :
    Moves c ok (s.lane c)
      (((s.respondTo t).inRound .session (locals t false) ops).lane c) := by
  by_cases hcd : c = t.connId
  · subst hcd
    refine .to (.answer t.index t.result _ (held_respond hio hopen)
      (by simp [lane, hio, Io.roundOf]) hr) ?_
    refine Lane.ext rfl rfl ?_ ?_ ?_ ?_ ?_ ?_
    · simp [lane, inRound, respondTo, record, append, setContext, setHistory]
    · simp [lane, inRound, respondTo, record, append, setContext, setHistory, Lane.record]
    · simp [lane, inRound, Lane.record, hio, Io.granted]
    · simp [lane, inRound, Lane.record, hio, Io.unread]
    · simp [lane, inRound, Io.roundOf, locals, RoundPos.applied]
    · simp [lane, held, inRound, Io.share, RoundPos.share, RespLocals.share, locals, add_assoc]
      rfl
  · refine .of_eq ?_
    have halike := respond_alike hio hcd
    refine (lane_io (s := s.respondTo t) halike).trans ?_
    simp [respondTo, append, hcd]

/-- The same for a result without a response. -/
theorem moves_answerSilent (hio : s.io = .drain (.respond t :: ops))
    (hopen : t.closeAfter = false) (hr : t.result.response = []) :
    Moves c ok (s.lane c) ((s.inRound .session (locals t false) ops).lane c) := by
  by_cases hcd : c = t.connId
  · subst hcd
    refine .to (.answerSilent t.index t.result _ (held_respond hio hopen)
      (by simp [lane, hio, Io.roundOf]) hr) ?_
    refine Lane.ext rfl rfl rfl rfl ?_ ?_ ?_ ?_
    · simp [lane, inRound, hio, Io.granted]
    · simp [lane, inRound, hio, Io.unread]
    · simp [lane, inRound, Io.roundOf, locals, RoundPos.applied]
    · simp [lane, held, inRound, Io.share, RoundPos.share, RespLocals.share, locals, add_assoc]
      rfl
  · exact .of_eq (lane_io (respond_alike hio hcd))

/-- Closing a connection in its own round, which is abandoned. -/
theorem round_closing {pos : RoundPos} (hio : s.io = .round pos loc ops) (hpos : pos.share c = 0) :
    Closing s c loc.task.connId (.drain ops) := by
  refine ⟨fun hcd => ?_, fun _ => rfl, fun _ => rfl, fun _ => .inl rfl, fun _ => ?_⟩
  · rw [hio]
    refine ⟨?_, ?_, rfl, rfl⟩
    · simp [Io.share, RespLocals.share, hpos, Ne.symm hcd]
    · simp [Io.roundOf, Ne.symm hcd]
  · exact ⟨loc.share c, by simp [hio, Io.share, hpos]⟩

/-- Deferring the end of a request hands its token to a mark task. -/
theorem lane_defer (pos pos' : RoundPos) (loc : RespLocals) (ops : List IoOp) (m : MarkTask)
    (hpos : pos'.share c = pos.share c) (happ : pos'.applied = pos.applied)
    (hdef : loc.deferred = false) (hm : m.connId = loc.task.connId)
    (hi : m.index = loc.task.index) (hf : m.finish = true) :
    ({ s with
        tasks := s.tasks ++ [.mark m]
        io := .round pos' { loc with deferred := true } ops } : Server).lane c =
      (s.inRound pos loc ops).lane c := by
  have hq := queued_addTask (s := s) (c := c) (.mark m)
  refine Lane.ext rfl rfl rfl rfl rfl rfl ?_ ?_
  · simp [lane, inRound, Io.roundOf, happ]
  · refine (congrArg (Io.share c (.round pos' { loc with deferred := true } ops) + ·) hq).trans ?_
    simp only [Io.share, RespLocals.share, Job.share, MarkTask.share, hpos, hdef, hm, hi, hf,
      inRound, lane, held, queued]
    by_cases hcd : loc.task.connId = c
    · simp only [hcd, if_true, and_self, Bool.true_eq_false, and_false, if_false]
      abel
    · simp [hcd]

/-- A response that is dropped. -/
theorem respond_closing (hio : s.io = .drain (.respond t :: ops)) :
    Closing s c t.connId (.drain ops) := by
  refine ⟨fun hcd => ?_, fun _ => rfl, fun _ => rfl, fun _ => .inl rfl, fun _ => ?_⟩
  · rw [hio]
    exact ⟨by simp [Io.share, IoOp.share, ResponseTask.share, Ne.symm hcd], rfl, rfl, rfl⟩
  · exact ⟨t.share c, by rw [hio]; rfl⟩

/-! ## Steps of a response round -/

/-- The same round at another position. -/
theorem round_alike {pos pos' : RoundPos} {loc' : RespLocals} (hio : s.io = .round pos loc ops)
    (hpos : pos'.share c = pos.share c) (htask : loc'.task = loc.task)
    (hdef : loc'.deferred = loc.deferred)
    (happ : loc.task.connId = c → pos'.applied = pos.applied) :
    Io.Alike c s.io (.round pos' loc' ops) := by
  rw [hio]
  refine ⟨?_, ?_, rfl, rfl⟩
  · simp [Io.share, hpos, RespLocals.share, htask, hdef]
  · by_cases hcd : loc.task.connId = c
    · simp [Io.roundOf, htask, happ hcd]
    · simp [Io.roundOf, htask, hcd]

@[simp] theorem lane_bindAuthenticatedConnection_ne (h : c ≠ d) (u : UserId) :
    (s.bindAuthenticatedConnection d u).lane c = s.lane c := by
  simp [bindAuthenticatedConnection, unbindAuthenticatedConnection, dropAuthenticated, lane, held,
    queued, setContext, h]

@[simp] theorem lane_unbindAuthenticatedConnection_ne (h : c ≠ d) :
    (s.unbindAuthenticatedConnection d).lane c = s.lane c := by
  simp [unbindAuthenticatedConnection, dropAuthenticated, lane, held, queued, setContext, h]

@[simp] theorem lane_bindAuthenticatedConnection_self (u : UserId) :
    (s.bindAuthenticatedConnection c u).lane c =
      { s.lane c with context := { s.contexts c with authenticatedUserId := u } } := by
  simp [bindAuthenticatedConnection, unbindAuthenticatedConnection, dropAuthenticated, lane, held,
    queued, setContext]

@[simp] theorem lane_unbindAuthenticatedConnection_self :
    (s.unbindAuthenticatedConnection c).lane c =
      { s.lane c with context := { s.contexts c with authenticatedUserId := 0 } } := by
  simp [unbindAuthenticatedConnection, dropAuthenticated, lane, held, queued, setContext]

/-- A session step: `s'` is the state with the action applied. -/
theorem moves_session (u : UserId) (hio : s.io = .round .session loc ops) (hio' : s'.io = s.io)
    (hself : s'.lane loc.task.connId =
      { (s.lane loc.task.connId).record loc.task.result.sessionEvents with
        context := { s.contexts loc.task.connId with authenticatedUserId := u } })
    (hother : c ≠ loc.task.connId → s'.lane c = s.lane c) :
    Moves c ok (s.lane c) ((s'.inRound .pushes loc ops).lane c) := by
  by_cases hcd : c = loc.task.connId
  · subst hcd
    refine .to (.session ⟨loc.task.index, loc.task.result, false⟩ u ?_ rfl) ?_
    · simp [lane, hio, Io.roundOf, RoundPos.applied]
    · -- only the position of the round differs from `s'`
      have hpos : (s'.inRound .pushes loc ops).lane loc.task.connId =
          { s'.lane loc.task.connId with
            round := some ⟨loc.task.index, loc.task.result, true⟩ } := by
        simp [lane, held, inRound, hio', hio, Io.granted, Io.unread, Io.roundOf, RoundPos.applied,
          Io.share, RoundPos.share]
        rfl
      rw [hpos, hself]
      rfl
  · refine .of_eq (.trans ?_ (hother hcd))
    exact lane_io (round_alike (hio'.trans hio) rfl rfl rfl fun h => absurd h.symm hcd)

@[simp] theorem note_task (loc : RespLocals) (p : OutboundMessage) :
    (RespLocals.note loc p).task = loc.task := by
  unfold RespLocals.note
  split
  · rfl
  · split <;> rfl

@[simp] theorem note_deferred (loc : RespLocals) (p : OutboundMessage) :
    (RespLocals.note loc p).deferred = loc.deferred := by
  unfold RespLocals.note
  split
  · rfl
  · split <;> rfl

theorem moves_crossRaised (ids : List Bytes) (userId : UserId) (hio : s.io = .round .cross loc ops)
    (hreg : s.registered d = true) (cross : List (ConnId × List Bytes × UserId)) :
    Moves c ok (s.lane c)
      (({ s.setContext d (s.contexts d).incrementPendingDeliveryMarks with
        io := .round (.crossSubmit d ids userId) { loc with cross } ops } : Server).lane c) := by
  by_cases hcd : c = d
  · subst hcd
    refine .to (.raise hreg) (Lane.ext rfl rfl ?_ rfl ?_ ?_ ?_ ?_)
    · simp [lane, setContext]
    · simp [lane, hio, Io.granted]
    · simp [lane, hio, Io.unread]
    · simp [lane, hio, Io.roundOf, RoundPos.applied]
    · simp only [lane, held, hio, Io.share, RoundPos.share, if_true, zero_add, add_assoc]
      rfl
  · refine .of_eq ((lane_io (s := s.setContext _ _) ?_).trans (lane_setContext_ne hcd _))
    exact round_alike hio (by simp [RoundPos.share, Ne.symm hcd]) rfl rfl fun _ => rfl

/-- The fence passes to the mark task. -/
theorem lane_crossSubmitted {ids : List Bytes} {userId : UserId}
    (hio : s.io = .round (.crossSubmit d ids userId) loc ops) :
    ({ s with
      tasks := s.tasks ++ [.mark ⟨userId, ids, d, false, 0⟩]
      io := .round .cross loc ops } : Server).lane c = s.lane c := by
  have hq := queued_addTask (s := s) (c := c) (.mark ⟨userId, ids, d, false, 0⟩)
  refine Lane.ext rfl rfl rfl rfl ?_ ?_ ?_ ?_
  · simp [lane, hio, Io.granted]
  · simp [lane, hio, Io.unread]
  · simp [lane, hio, Io.roundOf, RoundPos.applied]
  · refine (congrArg (Io.share c (.round .cross loc ops) + ·) hq).trans ?_
    simp only [lane, held, hio, Io.share, RoundPos.share, Job.share, MarkTask.share,
      Bool.false_eq_true, if_false]
    abel

/-- The fence is released at once. -/
theorem moves_crossRefused {ids : List Bytes} {userId : UserId}
    (hio : s.io = .round (.crossSubmit d ids userId) loc ops) :
    Moves c ok (s.lane c)
      (({ (s.setContext d (s.contexts d).decrementPendingDeliveryMarks).enqueuePostDeliveryEvent d
          false 0 with io := .round .cross loc ops } : Server).lane c) := by
  have hq := queued_addEvent (c := c) (s := s.setContext d
    (s.contexts d).decrementPendingDeliveryMarks) ⟨d, false, 0⟩
  by_cases hcd : c = d
  · subst hcd
    have hx : (s.lane c).held = Share.fence +
        (loc.share c + Base.load (IoOp.share c) ops + s.queued c) := by
      simp [lane, held, hio, Io.share, RoundPos.share, add_assoc]
    refine .to (.release _ hx) (Lane.ext rfl rfl ?_ rfl ?_ ?_ ?_ ?_)
    · simp [lane, enqueuePostDeliveryEvent, setContext]
    · simp [lane, hio, Io.granted]
    · simp [lane, hio, Io.unread]
    · simp [lane, hio, Io.roundOf, RoundPos.applied]
    · refine (congrArg (Io.share c (.round .cross loc ops) + ·) hq).trans ?_
      simp only [Io.share, RoundPos.share, PostDeliveryEvent.share, Bool.false_eq_true, if_true,
        if_false, zero_add]
      have : (s.setContext c (s.contexts c).decrementPendingDeliveryMarks).queued c =
        s.queued c := rfl
      rw [this]
      abel
  · refine .of_eq (Lane.ext rfl rfl ?_ rfl ?_ ?_ ?_ ?_)
    · simp [lane, enqueuePostDeliveryEvent, setContext, hcd]
    · simp [lane, hio, Io.granted]
    · simp [lane, hio, Io.unread]
    · simp [lane, hio, Io.roundOf, RoundPos.applied]
    · refine (congrArg (Io.share c (.round .cross loc ops) + ·) hq).trans ?_
      simp only [lane, held, hio, Io.share, RoundPos.share, PostDeliveryEvent.share,
        Ne.symm hcd, if_false, zero_add]
      rfl

theorem moves_sameDeferred (hio : s.io = .round .same loc ops) (hloc : RespLocals.Sound loc)
    (hids : loc.sameIds ≠ []) :
    Moves c ok (s.lane c)
      (({ s with
        tasks := s.tasks ++
          [.mark ⟨loc.sameUser, loc.sameIds, loc.task.connId, true, loc.task.index⟩]
        io := .round .finish { loc with deferred := true } ops } : Server).lane c) := by
  cases hdef : loc.deferred with
  | false =>
    refine .of_eq ((lane_defer .same .finish loc ops _ rfl rfl hdef rfl rfl rfl).trans ?_)
    rw [inRound, ← hio]
  | true =>
    -- the second deferral
    obtain ⟨hresp, hdel⟩ := hloc.deferred hdef
    have htwice : loc.task.result.DefersTwice loc.task.connId := ⟨hresp, hdel, hloc.same hids⟩
    have hq := queued_addTask (s := s) (c := c)
      (.mark ⟨loc.sameUser, loc.sameIds, loc.task.connId, true, loc.task.index⟩)
    have halike : Io.Alike c s.io (.round .finish { loc with deferred := true } ops) :=
      round_alike hio rfl rfl hdef.symm fun _ => rfl
    by_cases hcd : c = loc.task.connId
    · subst hcd
      refine .to (.extraToken ⟨loc.task.index, loc.task.result, true⟩ ?_ htwice)
        (Lane.ext rfl rfl rfl rfl halike.granted halike.unread halike.round ?_)
      · simp [lane, hio, Io.roundOf, RoundPos.applied]
      · refine (congrArg (Io.share _ (.round .finish { loc with deferred := true } ops) + ·)
          hq).trans ?_
        simp only [halike.share, lane, held, Job.share, MarkTask.share, if_true]
        abel
    · refine .of_eq (Lane.ext rfl rfl rfl rfl halike.granted halike.unread halike.round ?_)
      refine (congrArg (Io.share _ (.round .finish { loc with deferred := true } ops) + ·)
        hq).trans ?_
      simp [halike.share, lane, held, Job.share, MarkTask.share, Ne.symm hcd]

/-! ## Ending requests -/

theorem afterPop_share (ops : List IoOp) (next : Option Bytes) :
    (afterPop d ops next).share c = Base.load (IoOp.share c) ops := by
  cases next <;> rfl

/-- After popping from the queue of `d`, connection `d` has the popped request
granted and other connections see the remaining operations. -/
theorem lane_popped_self (ops : List IoOp) (r : Option Bytes × ConnectionContext) :
    ({ s.setContext c r.2 with io := afterPop c ops r.1 } : Server).lane c =
      { (s.lane c).popped r with
        unread := [], round := none, held := Base.load (IoOp.share c) ops + s.queued c } := by
  have hq : ({ s.setContext c r.2 with io := afterPop c ops r.1 } : Server).queued c =
      s.queued c := rfl
  refine Lane.ext rfl rfl ?_ rfl ?_ ?_ ?_ ?_
  · simp [lane, setContext, Lane.popped]
  · cases h : r.1 <;> simp [lane, afterPop, Io.granted, Lane.popped, h]
  · cases h : r.1 <;> simp [lane, afterPop, Io.unread]
  · cases h : r.1 <;> simp [lane, afterPop, Io.roundOf]
  · simp only [lane, held, hq, afterPop_share]

theorem lane_popped_ne (h : c ≠ d) (ops : List IoOp) (next : Option Bytes)
    (ctx : ConnectionContext) (halike : Io.Alike c s.io (.drain ops)) :
    ({ s.setContext d ctx with io := afterPop d ops next } : Server).lane c = s.lane c := by
  refine (lane_io (s := s.setContext d ctx) ?_).trans (lane_setContext_ne h _)
  cases next with
  | none => exact halike
  | some p =>
    exact ⟨halike.share, halike.round,
      .trans (by simp [afterPop, Io.granted, Ne.symm h]) halike.granted, halike.unread⟩

/-- Other connections do not notice an event. -/
theorem event_alike {e : PostDeliveryEvent} (hio : s.io = .drain (.event e :: ops))
    (h : c ≠ e.connId) : Io.Alike c s.io (.drain ops) := by
  rw [hio]
  exact ⟨by simp [Io.share, IoOp.share, PostDeliveryEvent.share, Ne.symm h], rfl, rfl, rfl⟩

theorem moves_eventFinished {e : PostDeliveryEvent} (hio : s.io = .drain (.event e :: ops))
    (hfinish : e.finishCurrentRequest = true) :
    Moves c ok (s.lane c)
      (({ s.setContext e.connId (s.contexts e.connId).finishRequestAndPopNext.2 with
        io := afterPop e.connId ops
          (s.contexts e.connId).finishRequestAndPopNext.1 } : Server).lane c) := by
  by_cases hcd : c = e.connId
  · subst hcd
    have hx : (s.lane e.connId).held = Share.token ⟨e.index, .finishing⟩ +
        (Base.load (IoOp.share e.connId) ops + s.queued e.connId) := by
      simp [lane, held, hio, Io.share, IoOp.share, PostDeliveryEvent.share, hfinish, add_assoc]
    refine .to (.finish e.index _ hx ?_ ?_ ?_) ((lane_popped_self ops _).trans ?_)
    all_goals simp [lane, hio, Io.roundOf, Io.granted, Io.unread, Lane.popped]
  · exact .of_eq (lane_popped_ne hcd ops _ _ (event_alike hio hcd))

theorem moves_eventWoke {e : PostDeliveryEvent} (hio : s.io = .drain (.event e :: ops))
    (hwake : e.finishCurrentRequest = false) :
    Moves c ok (s.lane c)
      (({ s.setContext e.connId (s.contexts e.connId).popNextRequestIfIdle.2 with
        io := afterPop e.connId ops
          (s.contexts e.connId).popNextRequestIfIdle.1 } : Server).lane c) := by
  by_cases hcd : c = e.connId
  · subst hcd
    have hx : (s.lane e.connId).held = Share.wake +
        (Base.load (IoOp.share e.connId) ops + s.queued e.connId) := by
      simp [lane, held, hio, Io.share, IoOp.share, PostDeliveryEvent.share, hwake, add_assoc]
    refine .to (.wake _ hx ?_ ?_) ((lane_popped_self ops _).trans ?_)
    all_goals simp [lane, hio, Io.roundOf, Io.granted, Io.unread, Lane.popped]
  · exact .of_eq (lane_popped_ne hcd ops _ _ (event_alike hio hcd))

/-- Leaving a round for operations that hold the same. -/
theorem moves_endRound (hio : s.io = .round .finish loc ops) (ops' : List IoOp)
    (hshare : Base.load (IoOp.share c) ops' = s.io.share c) :
    Moves c ok (s.lane c) (({ s with io := .drain ops' } : Server).lane c) := by
  by_cases hcd : c = loc.task.connId
  · subst hcd
    refine .to (.endRound ⟨loc.task.index, loc.task.result, true⟩ ?_ rfl)
      (Lane.ext rfl rfl rfl rfl ?_ ?_ rfl ?_)
    · simp [lane, hio, Io.roundOf, RoundPos.applied]
    · simp [lane, hio, Io.granted]
    · simp [lane, hio, Io.unread]
    · exact congrArg (· + s.queued loc.task.connId) hshare
  · refine .of_eq (lane_io ⟨hshare, ?_, ?_, ?_⟩)
    · simp [hio, Io.roundOf, Ne.symm hcd]
    · simp [hio, Io.granted]
    · simp [hio, Io.unread]

theorem moves_finished (hio : s.io = .round .finish loc ops) (hdef : loc.deferred = false) :
    Moves c ok (s.lane c)
      (({ s.setContext loc.task.connId
          (s.contexts loc.task.connId).finishRequestAndPopNext.2 with
        io := afterPop loc.task.connId ops
          (s.contexts loc.task.connId).finishRequestAndPopNext.1 } : Server).lane c) := by
  -- the round's token is like that of a finish event in front
  let e : PostDeliveryEvent := ⟨loc.task.connId, true, loc.task.index⟩
  refine .trans (moves_endRound hio (.event e :: ops) ?_) ?_
  · by_cases hcd : loc.task.connId = c <;>
      simp [e, hio, Io.share, IoOp.share, RoundPos.share, RespLocals.share,
        PostDeliveryEvent.share, hdef, hcd]
  · exact moves_eventFinished (s := { s with io := .drain (.event e :: ops) }) rfl rfl

end Server
end ChatServer.Net
