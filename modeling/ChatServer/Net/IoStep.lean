import ChatServer.Net.Step

/-!
# What a step of the I/O thread can do

`IoStep s env t io` lists the steps of the I/O thread: from `s`, with the answers
`env`, the rest of the server becomes that of `t` and the thread goes on from `io`.
`ioStep_cases` says that there are no others; facts about steps are proved by cases
on it.
-/

namespace ChatServer.Net

open ChatServer.Codec ConnectionContext

namespace Server

/-- Where the I/O thread goes after popping from a queue. -/
def afterPop (d : ConnId) (ops : List IoOp) : Option Bytes → Io
  | none => .drain ops
  | some request => .submitNext d request ops

/-- A push in the send buffer of a connection. -/
def pushTo (s : Server) (c : ConnId) (payload : Bytes) : Server :=
  (s.append c payload).record c (.push payload)

/-- A response in the send buffer of its connection. -/
def respondTo (s : Server) (t : ResponseTask) : Server :=
  (s.append t.connId t.result.response).record t.connId (.response t.result.response)

inductive IoStep (s : Server) (env : Env) : Server → Io → Prop
  -- `onReadable`
  | readNothing {c} (hio : s.io = .reading c) (hrecv : env.recv = .again ∨ env.recv = .eof) :
      IoStep s env s .idle
  | readError {c} (hio : s.io = .reading c) : IoStep s env (s.closeClientFd c env.cleanup) .idle
  | received {c} (chunk : Bytes) (hio : s.io = .reading c) (hrecv : env.recv = .data chunk)
      (hok : ((s.contexts c).packetCodec.feed chunk).ok = true) :
      IoStep s env
        ((s.setContext c { s.contexts c with
            packetCodec := ((s.contexts c).packetCodec.feed chunk).codec }).setHistory c
          { s.history c with
            received := (s.history c).received ++ chunk
            framed := (s.history c).framed ++
              ((s.contexts c).packetCodec.feed chunk).packets.filter fun p => !p.isEmpty })
        (.packets c ((s.contexts c).packetCodec.feed chunk).packets)
  | oversized {c} (chunk : Bytes) (hio : s.io = .reading c) :
      IoStep s env
        ((s.setContext c { s.contexts c with
            packetCodec := ((s.contexts c).packetCodec.feed chunk).codec }).closeClientFd c
          env.cleanup)
        .idle
  | packetsDone {c} (hio : s.io = .packets c []) : IoStep s env s (.reading c)
  | packetEmpty {c p rest} (hio : s.io = .packets c (p :: rest)) (hp : p.isEmpty = true) :
      IoStep s env s (.packets c rest)
  | packet {c p rest} (hio : s.io = .packets c (p :: rest)) (hp : p.isEmpty = false) :
      IoStep s env (s.setContext c ((s.contexts c).startRequestOrQueue p).2)
        (if ((s.contexts c).startRequestOrQueue p).1 then .submitRead c p rest
          else .packets c rest)
  | readSubmitted {c p rest t} (hio : s.io = .submitRead c p rest)
      (hsub : s.submitRequestTask c p env.submit = some t) : IoStep s env t (.packets c rest)
  | readRefused {c p rest} (hio : s.io = .submitRead c p rest) :
      IoStep s env (s.closeClientFd c env.cleanup) .idle
  -- `onWritable`
  | writeNothing {c} (hio : s.io = .writing c) : IoStep s env s .idle
  | writeError {c} (hio : s.io = .writing c) : IoStep s env (s.closeClientFd c env.cleanup) .idle
  | wrote {c} (n : Nat) (hio : s.io = .writing c) :
      IoStep s env
        ((s.setContext c ((s.contexts c).consumePendingSend n)).setHistory c
          { s.history c with sent := (s.history c).sent ++ (s.contexts c).pendingSend.take n })
        (.writing c)
  -- the loops of `onWorkerResultReadable`
  | drained (hio : s.io = .drain []) : IoStep s env s .idle
  | takeRemote {ops} (hio : s.io = .drain (.takeRemote :: ops)) :
      IoStep s env { s with remotePushTasks := [] }
        (.drain (s.remotePushTasks.map IoOp.remote ++ ops))
  | takeCompleted {ops} (hio : s.io = .drain (.takeCompleted :: ops)) :
      IoStep s env { s with completedTasks := [] }
        (.drain (s.completedTasks.map IoOp.respond ++ ops))
  | takeEvents {ops} (hio : s.io = .drain (.takeEvents :: ops)) :
      IoStep s env { s with postDeliveryEvents := [] }
        (.drain (s.postDeliveryEvents.map IoOp.event ++ ops))
  | remoteSkipped {e ops} (hio : s.io = .drain (.remote e :: ops)) : IoStep s env s (.drain ops)
  | remotePushed {e ops} (hio : s.io = .drain (.remote e :: ops)) (hclaimed : env.claimed = true)
      (hbound : env.bound = true) (hreg : s.registered e.targetConnectionId = true) :
      IoStep s env (s.pushTo e.targetConnectionId e.payload) (.drain ops)
  | remoteFailed {e ops} (hio : s.io = .drain (.remote e :: ops)) (hclaimed : env.claimed = true)
      (hbound : env.bound = true) (hreg : s.registered e.targetConnectionId = true) :
      IoStep s env ((s.pushTo e.targetConnectionId e.payload).closeClientFd e.targetConnectionId
        env.cleanup) (.drain ops)
  | respondGone {t ops} (hio : s.io = .drain (.respond t :: ops))
      (hreg : s.registered t.connId = false) : IoStep s env s (.drain ops)
  | respondClosed {t ops} (hio : s.io = .drain (.respond t :: ops)) :
      IoStep s env (s.closeClientFd t.connId env.cleanup) (.drain ops)
  | respondSilent {t ops} (hio : s.io = .drain (.respond t :: ops))
      (hopen : t.closeAfter = false) (hresponse : t.result.response = []) :
      IoStep s env s (.round .session (locals t false) ops)
  | respondFailed {t ops} (hio : s.io = .drain (.respond t :: ops))
      (hopen : t.closeAfter = false) (hresponse : t.result.response ≠ []) :
      IoStep s env ((s.respondTo t).closeClientFd t.connId env.cleanup) (.drain ops)
  | responded {t ops} (hio : s.io = .drain (.respond t :: ops)) (hopen : t.closeAfter = false)
      (hresponse : t.result.response ≠ []) (hreg : s.registered t.connId = true) :
      IoStep s env (s.respondTo t) (.round .session (locals t false) ops)
  | respondedDeferred {t ops} (hio : s.io = .drain (.respond t :: ops))
      (hopen : t.closeAfter = false) (hresponse : t.result.response ≠ [])
      (hreg : s.registered t.connId = true) (hids : t.result.deliveredMessageIds ≠ []) :
      IoStep s env
        { s.respondTo t with
          tasks := (s.respondTo t).tasks ++ [.mark ⟨t.result.deliveredUserId,
            t.result.deliveredMessageIds, t.connId, true, t.index⟩] }
        (.round .session (locals t true) ops)
  | eventGone {e ops} (hio : s.io = .drain (.event e :: ops))
      (hreg : s.registered e.connId = false) : IoStep s env s (.drain ops)
  | eventFinished {e ops} (hio : s.io = .drain (.event e :: ops))
      (hfinish : e.finishCurrentRequest = true) :
      IoStep s env (s.setContext e.connId (s.contexts e.connId).finishRequestAndPopNext.2)
        (afterPop e.connId ops (s.contexts e.connId).finishRequestAndPopNext.1)
  | eventWoke {e ops} (hio : s.io = .drain (.event e :: ops))
      (hfinish : e.finishCurrentRequest = false) :
      IoStep s env (s.setContext e.connId (s.contexts e.connId).popNextRequestIfIdle.2)
        (afterPop e.connId ops (s.contexts e.connId).popNextRequestIfIdle.1)
  | nextSubmitted {c p ops t} (hio : s.io = .submitNext c p ops)
      (hsub : s.submitRequestTask c p env.submit = some t) : IoStep s env t (.drain ops)
  | nextRefused {c p ops} (hio : s.io = .submitNext c p ops) :
      IoStep s env ((s.setContext c (s.contexts c).clearPendingRequests).closeClientFd c
        env.cleanup) (.drain ops)
  -- a response round
  | sessionNone {loc ops} (hio : s.io = .round .session loc ops)
      (haction : loc.task.result.sessionAction = .none) : IoStep s env s (.round .pushes loc ops)
  | sessionBound {loc ops} (hio : s.io = .round .session loc ops)
      (haction : loc.task.result.sessionAction = .bind) :
      IoStep s env
        ((s.bindAuthenticatedConnection loc.task.connId
            loc.task.result.pendingSession.userId).record loc.task.connId
          (.session .bind loc.task.result.pendingSession))
        (.round .pushes loc ops)
  | sessionUnbound {loc ops} (hio : s.io = .round .session loc ops)
      (haction : loc.task.result.sessionAction = .unbind) :
      IoStep s env
        ((s.unbindAuthenticatedConnection loc.task.connId).record loc.task.connId
          (.session .unbind loc.task.result.pendingSession))
        (.round .pushes loc ops)
  | pushesDone {loc ops} (hio : s.io = .round .pushes loc ops) :
      IoStep s env s (.round .cross loc ops)
  | pushSkipped {loc ops p rest} (hio : s.io = .round .pushes loc ops)
      (hpushes : loc.pushes = p :: rest) :
      IoStep s env s (.round .pushes { loc with pushes := rest } ops)
  | pushed {loc ops p rest} (hio : s.io = .round .pushes loc ops)
      (hpushes : loc.pushes = p :: rest) (hbound : env.bound = true)
      (hreg : s.registered p.targetConnId = true) (hpayload : p.payload ≠ []) :
      IoStep s env (s.pushTo p.targetConnId p.payload)
        (.round .pushes (RespLocals.note { loc with pushes := rest } p) ops)
  | pushFailed {loc ops p rest} (hio : s.io = .round .pushes loc ops)
      (hpushes : loc.pushes = p :: rest) (hbound : env.bound = true)
      (hreg : s.registered p.targetConnId = true) (hpayload : p.payload ≠ []) :
      IoStep s env ((s.pushTo p.targetConnId p.payload).closeClientFd p.targetConnId env.cleanup)
        (.round .pushes { loc with pushes := rest } ops)
  | crossDone {loc ops} (hio : s.io = .round .cross loc ops) :
      IoStep s env s (.round .same loc ops)
  | crossGone {loc ops} (hio : s.io = .round .cross loc ops) :
      IoStep s env s (.round .cross { loc with cross := loc.cross.eraseIdx env.pick } ops)
  | crossRaised {loc ops target} (ids : List Bytes) (userId : UserId)
      (hio : s.io = .round .cross loc ops) (hreg : s.registered target = true) :
      IoStep s env (s.setContext target (s.contexts target).incrementPendingDeliveryMarks)
        (.round (.crossSubmit target ids userId)
          { loc with cross := loc.cross.eraseIdx env.pick } ops)
  | crossSubmitted {loc ops target ids userId}
      (hio : s.io = .round (.crossSubmit target ids userId) loc ops) :
      IoStep s env { s with tasks := s.tasks ++ [.mark ⟨userId, ids, target, false, 0⟩] }
        (.round .cross loc ops)
  | crossRefused {loc ops target ids userId}
      (hio : s.io = .round (.crossSubmit target ids userId) loc ops) :
      IoStep s env
        ((s.setContext target
          (s.contexts target).decrementPendingDeliveryMarks).enqueuePostDeliveryEvent target
          false 0)
        (.round .cross loc ops)
  | sameNone {loc ops} (hio : s.io = .round .same loc ops) :
      IoStep s env s (.round .finish loc ops)
  | sameDeferred {loc ops} (hio : s.io = .round .same loc ops) (hids : loc.sameIds ≠ []) :
      IoStep s env
        { s with
          tasks := s.tasks ++
            [.mark ⟨loc.sameUser, loc.sameIds, loc.task.connId, true, loc.task.index⟩] }
        (.round .finish { loc with deferred := true } ops)
  | finishDeferred {loc ops} (hio : s.io = .round .finish loc ops)
      (hdeferred : loc.deferred = true) : IoStep s env s (.drain ops)
  | finished {loc ops} (hio : s.io = .round .finish loc ops) (hdeferred : loc.deferred = false) :
      IoStep s env
        (s.setContext loc.task.connId (s.contexts loc.task.connId).finishRequestAndPopNext.2)
        (afterPop loc.task.connId ops
          (s.contexts loc.task.connId).finishRequestAndPopNext.1)

/-- `s'` is what the step makes of `s`. -/
def Outcome (s : Server) (env : Env) (s' : Server) : Prop :=
  ∃ t io, s.IoStep env t io ∧ s' = { t with io := io }

section

variable {s s' : Server} {env : Env} {c : ConnId} {ops : List IoOp} {loc : RespLocals}

theorem finishCurrentRequest_eq (ops : List IoOp) :
    s.finishCurrentRequest c ops =
      { s.setContext c (s.contexts c).finishRequestAndPopNext.2 with
        io := afterPop c ops (s.contexts c).finishRequestAndPopNext.1 } := by
  unfold finishCurrentRequest
  cases (s.contexts c).finishRequestAndPopNext with
  | mk next ctx => cases next <;> rfl

theorem submitNextIfIdle_eq (ops : List IoOp) :
    s.submitNextIfIdle c ops =
      { s.setContext c (s.contexts c).popNextRequestIfIdle.2 with
        io := afterPop c ops (s.contexts c).popNextRequestIfIdle.1 } := by
  unfold submitNextIfIdle
  cases (s.contexts c).popNextRequestIfIdle with
  | mk next ctx => cases next <;> rfl

theorem readSome_outcome (hio : s.io = .reading c) (h : s.readSome c env = some s') :
    s.Outcome env s' := by
  unfold readSome at h
  split at h
  case h_1 hrecv =>
    cases h
    exact ⟨_, _, .readNothing hio (.inl hrecv), rfl⟩
  case h_2 hrecv =>
    cases h
    exact ⟨_, _, .readNothing hio (.inr hrecv), rfl⟩
  case h_3 =>
    cases h
    exact ⟨_, _, .readError hio, rfl⟩
  case h_4 chunk hrecv =>
    obtain ⟨-, ⟨⟩⟩ := Option.ite_none_right_eq_some.mp h
    unfold receive
    simp only
    split
    next hok => exact ⟨_, _, .received chunk hio hrecv hok, rfl⟩
    next => exact ⟨_, _, .oversized chunk hio, rfl⟩

theorem nextPacket_outcome {rest : List Bytes} (hio : s.io = .packets c rest) :
    s.Outcome env (s.nextPacket c rest) := by
  cases rest with
  | nil => exact ⟨_, _, .packetsDone hio, rfl⟩
  | cons p rest =>
    simp only [nextPacket]
    split
    next hp => exact ⟨_, _, .packetEmpty hio hp, rfl⟩
    next hp => exact ⟨_, _, .packet hio (Bool.eq_false_iff.mpr hp), rfl⟩

theorem submitRead_outcome {p : Bytes} {rest : List Bytes} (hio : s.io = .submitRead c p rest) :
    s.Outcome env (s.submitRead c p rest env) := by
  unfold submitRead
  split
  next hsub => exact ⟨_, _, .readSubmitted hio hsub, rfl⟩
  next => exact ⟨_, _, .readRefused hio, rfl⟩

theorem writeSome_outcome (hio : s.io = .writing c) : s.Outcome env (s.writeSome c env) := by
  unfold writeSome
  split
  · split
    · exact ⟨_, _, .writeNothing hio, rfl⟩
    · exact ⟨_, _, .writeError hio, rfl⟩
  · split
    · exact ⟨_, _, .writeNothing hio, rfl⟩
    · exact ⟨_, _, .writeError hio, rfl⟩
    · exact ⟨_, _, .writeError hio, rfl⟩
    next n _ =>
      refine ⟨_, _, .wrote n hio, ?_⟩
      rw [← hio]
      rfl

theorem respondOp_outcome {t : ResponseTask} (hio : s.io = .drain (.respond t :: ops)) :
    s.Outcome env (s.respondOp t ops env) := by
  unfold respondOp
  simp only
  split
  next hlock =>
    simp only [canLock, Bool.not_eq_true', Bool.or_eq_false_iff] at hlock
    exact ⟨_, _, .respondGone hio hlock.1, rfl⟩
  split
  · exact ⟨_, _, .respondClosed hio, rfl⟩
  next hopen =>
    have hopen := Bool.eq_false_iff.mpr hopen
    split
    next hempty => exact ⟨_, _, .respondSilent hio hopen (List.isEmpty_iff.mp hempty), rfl⟩
    next hfull =>
      have hresponse : t.result.response ≠ [] := fun h => hfull (List.isEmpty_iff.mpr h)
      split
      · exact ⟨_, _, .respondFailed hio hopen hresponse, rfl⟩
      next hsent =>
        simp only [Bool.not_eq_true, Bool.not_eq_false', Bool.and_eq_true] at hsent
        split
        · exact ⟨_, _, .responded hio hopen hresponse hsent.2, rfl⟩
        next hids =>
          simp only [Bool.or_eq_true, List.isEmpty_iff, not_or] at hids
          exact ⟨_, _, .respondedDeferred hio hopen hresponse hsent.2 hids.1, rfl⟩

theorem runOp_outcome {op : IoOp} (hio : s.io = .drain (op :: ops)) :
    s.Outcome env (s.runOp op ops env) := by
  cases op with
  | takeRemote => exact ⟨_, _, .takeRemote hio, rfl⟩
  | takeCompleted => exact ⟨_, _, .takeCompleted hio, rfl⟩
  | takeEvents => exact ⟨_, _, .takeEvents hio, rfl⟩
  | respond t => exact respondOp_outcome hio
  | remote e =>
    simp only [runOp, remoteOp]
    split
    next h =>
      simp only [Bool.and_eq_true] at h
      split
      · exact ⟨_, _, .remotePushed hio h.1.1 h.1.2 h.2, rfl⟩
      · exact ⟨_, _, .remoteFailed hio h.1.1 h.1.2 h.2, rfl⟩
    next => exact ⟨_, _, .remoteSkipped hio, rfl⟩
  | event e =>
    simp only [runOp, eventOp]
    split
    next hreg => exact ⟨_, _, .eventGone hio (by simpa using hreg), rfl⟩
    split
    next hfinish =>
      rw [finishCurrentRequest_eq]
      exact ⟨_, _, .eventFinished hio hfinish, rfl⟩
    next hfinish =>
      rw [submitNextIfIdle_eq]
      exact ⟨_, _, .eventWoke hio (Bool.eq_false_iff.mpr hfinish), rfl⟩

theorem pushesOp_outcome (hio : s.io = .round .pushes loc ops) :
    s.Outcome env (s.pushesOp loc ops env) := by
  unfold pushesOp
  split
  · exact ⟨_, _, .pushesDone hio, rfl⟩
  next p rest hpushes =>
    simp only
    split
    next h =>
      simp only [Bool.and_eq_true, Bool.not_eq_true', List.isEmpty_eq_false_iff] at h
      split
      · exact ⟨_, _, .pushed hio hpushes h.1.1 h.1.2 h.2, rfl⟩
      · exact ⟨_, _, .pushFailed hio hpushes h.1.1 h.1.2 h.2, rfl⟩
    next => exact ⟨_, _, .pushSkipped hio hpushes, rfl⟩

theorem roundStep_outcome {pos : RoundPos} (hio : s.io = .round pos loc ops)
    (h : s.roundStep pos loc ops env = some s') : s.Outcome env s' := by
  cases pos with
  | session =>
    cases h
    unfold sessionOp
    simp only
    split
    next haction => exact ⟨_, _, .sessionNone hio haction, rfl⟩
    next haction => exact ⟨_, _, .sessionBound hio haction, rfl⟩
    next haction => exact ⟨_, _, .sessionUnbound hio haction, rfl⟩
  | pushes =>
    cases h
    exact pushesOp_outcome hio
  | cross =>
    simp only [roundStep, crossOp] at h
    split at h
    · cases h
      exact ⟨_, _, .crossDone hio, rfl⟩
    split at h
    · cases h
    next target ids userId _ =>
      split at h
      next hreg =>
        cases h
        exact ⟨_, _, .crossRaised ids userId hio hreg, rfl⟩
      next =>
        cases h
        exact ⟨_, _, .crossGone hio, rfl⟩
  | crossSubmit target ids userId =>
    cases h
    unfold crossSubmitOp
    split
    · exact ⟨_, _, .crossSubmitted hio, rfl⟩
    · exact ⟨_, _, .crossRefused hio, rfl⟩
  | same =>
    cases h
    unfold sameOp
    split
    · exact ⟨_, _, .sameNone hio, rfl⟩
    next hids =>
      simp only [Bool.or_eq_true, List.isEmpty_iff, not_or] at hids
      exact ⟨_, _, .sameDeferred hio hids.1, rfl⟩
  | finish =>
    cases h
    unfold finishOp
    split
    next hdeferred => exact ⟨_, _, .finishDeferred hio hdeferred, rfl⟩
    next hdeferred =>
      rw [finishCurrentRequest_eq]
      exact ⟨_, _, .finished hio (Bool.eq_false_iff.mpr hdeferred), rfl⟩

/-- The steps of the I/O thread are those listed. -/
theorem ioStep_cases (h : s.ioStep env = some s') : s.Outcome env s' := by
  unfold ioStep at h
  split at h
  case h_1 => cases h
  case h_2 hio => exact readSome_outcome hio h
  case h_8 hio => exact roundStep_outcome hio h
  all_goals cases h
  case h_3 hio => exact nextPacket_outcome hio
  case h_4 hio => exact submitRead_outcome hio
  case h_5 hio => exact writeSome_outcome hio
  case h_6 hio => exact ⟨_, _, .drained hio, rfl⟩
  case h_7 hio => exact runOp_outcome hio
  case h_9 hio =>
    unfold submitNext
    split
    next hsub => exact ⟨_, _, .nextSubmitted hio hsub, rfl⟩
    next => exact ⟨_, _, .nextRefused hio, rfl⟩

end

end Server
end ChatServer.Net
