import ChatServer.Net.Simulate

/-!
# Every step is a sequence of moves

The remaining steps (queues being drained, workers, the pool) and the
simulation theorem `lane_step`, together with the facts about the I/O thread
and the workers it relies on (`Sound`).
-/

namespace ChatServer.Net

open ChatServer.Codec ConnectionContext
open Lane (Moves Move)

namespace Server

variable {s s' : Server} {c d : ConnId} {ok : HandleResult → Prop}

/-! ## Draining the queues -/

variable {ops : List IoOp} {env : Env} {i : Nat} {w : Worker}

theorem lane_takeRemote (hio : s.io = .drain (.takeRemote :: ops)) :
    ({ s with
      remotePushTasks := []
      io := .drain (s.remotePushTasks.map IoOp.remote ++ ops) } : Server).lane c = s.lane c := by
  refine (lane_io (s := { s with remotePushTasks := [] }) ?_).trans rfl
  refine ⟨?_, ?_, ?_, ?_⟩
  · have hzero : Base.load (IoOp.share c) (s.remotePushTasks.map IoOp.remote) = 0 := by
      refine Base.load_eq_zero _ fun op hop => ?_
      obtain ⟨e, _, rfl⟩ := List.mem_map.mp hop
      rfl
    simp [hio, Io.share, hzero, IoOp.share]
  all_goals simp [hio, Io.roundOf, Io.granted, Io.unread]

theorem lane_takeCompleted (hio : s.io = .drain (.takeCompleted :: ops)) :
    ({ s with
      completedTasks := []
      io := .drain (s.completedTasks.map IoOp.respond ++ ops) } : Server).lane c = s.lane c := by
  have hq := queued_takeCompleted (s := s) (c := c)
  refine Lane.ext rfl rfl rfl rfl ?_ ?_ ?_ ?_
  · simp [lane, hio, Io.granted]
  · simp [lane, hio, Io.unread]
  · simp [lane, hio, Io.roundOf]
  · have hmap : Base.load (IoOp.share c) (s.completedTasks.map IoOp.respond) =
        Base.load (ResponseTask.share c) s.completedTasks := Base.load_map _ _ _
    simp only [lane, held, hio, hq, Io.share, Base.load_append, Base.load_cons, hmap,
      IoOp.share, zero_add]
    abel

theorem lane_takeEvents (hio : s.io = .drain (.takeEvents :: ops)) :
    ({ s with
      postDeliveryEvents := []
      io := .drain (s.postDeliveryEvents.map IoOp.event ++ ops) } : Server).lane c = s.lane c := by
  have hq := queued_takeEvents (s := s) (c := c)
  refine Lane.ext rfl rfl rfl rfl ?_ ?_ ?_ ?_
  · simp [lane, hio, Io.granted]
  · simp [lane, hio, Io.unread]
  · simp [lane, hio, Io.roundOf]
  · have hmap : Base.load (IoOp.share c) (s.postDeliveryEvents.map IoOp.event) =
        Base.load (PostDeliveryEvent.share c) s.postDeliveryEvents := Base.load_map _ _ _
    simp only [lane, held, hio, hq, Io.share, Base.load_append, Base.load_cons, hmap,
      IoOp.share, zero_add]
    abel

/-! ## Workers -/

/-- What `take` does to the pool, whatever the job. -/
theorem moves_takeTask (h : s.takeTask = some s') : Moves c ok (s.lane c) (s'.lane c) := by
  unfold takeTask at h
  split at h
  · cases h
  · rename_i job rest htasks
    split at h
    · have hq := queued_takeTask (c := c) htasks
      cases job with
      | request t =>
        cases h
        have hw := queued_addWorker (s := { s with tasks := rest }) (c := c) (.handling t)
        by_cases hcd : c = t.connId
        · subst hcd
          refine .to (.start t.index t.request
            (s.io.share t.connId + ({ s with tasks := rest } : Server).queued t.connId) ?_) ?_
          · simp only [lane, held, hq, Job.share, if_true]
            abel
          · refine (lane_record_self _).trans (Lane.ext rfl rfl rfl rfl rfl rfl rfl ?_)
            refine (congrArg (s.io.share _ + ·) hw).trans ?_
            simp only [Worker.share, if_true]
            abel
        · refine .of_eq ((lane_record_ne hcd _).trans (Lane.ext rfl rfl rfl rfl rfl rfl rfl ?_))
          refine (congrArg (s.io.share _ + ·) hw).trans ?_
          simp [lane, held, hq, Worker.share, Job.share, Ne.symm hcd]
      | mark m =>
        cases h
        have hw := queued_addWorker (s := { s with tasks := rest }) (c := c) (.delivering m)
        refine .of_eq (Lane.ext rfl rfl rfl rfl rfl rfl rfl ?_)
        refine (congrArg (s.io.share _ + ·) hw).trans ?_
        simp [lane, held, hq, Worker.share, Job.share]
      | cleanup e =>
        cases h
        have hw := queued_addWorker (s := { s with tasks := rest }) (c := c) (.cleaning e)
        refine .of_eq (Lane.ext rfl rfl rfl rfl rfl rfl rfl ?_)
        refine (congrArg (s.io.share _ + ·) hw).trans ?_
        simp [lane, held, hq, Worker.share, Job.share]
    · cases h

/-- A worker goes on without the lane noticing. -/
theorem lane_worker {w' : Worker} (h : s.workers[i]? = some w) (hshare : w'.share c = w.share c) :
    ({ s with workers := s.workers.set i w' } : Server).lane c = s.lane c := by
  obtain ⟨x, hq, _, hset⟩ := queued_worker (c := c) h
  refine Lane.ext rfl rfl rfl rfl rfl rfl rfl ?_
  refine (congrArg (s.io.share c + ·) (hset w')).trans ?_
  rw [lane, held, hq, hshare]

/-- A worker that holds nothing leaves. -/
theorem lane_workerLeaves (h : s.workers[i]? = some w) (hshare : w.share c = 0) :
    ({ s with workers := s.workers.eraseIdx i } : Server).lane c = s.lane c := by
  obtain ⟨x, hq, herase, _⟩ := queued_worker (c := c) h
  refine Lane.ext rfl rfl rfl rfl rfl rfl rfl ?_
  refine (congrArg (s.io.share c + ·) herase).trans ?_
  rw [lane, held, hq, hshare, zero_add]

/-- A worker drops what it holds for a connection that is gone. -/
theorem moves_workerDrops (h : s.workers[i]? = some w) (hreg : s.registered d = false)
    (hother : c ≠ d → w.share c = 0) :
    Moves c ok (s.lane c) (({ s with workers := s.workers.eraseIdx i } : Server).lane c) := by
  by_cases hcd : c = d
  · subst hcd
    obtain ⟨x, hq, herase, _⟩ := queued_worker (c := c) h
    refine .gone (w.share c) hreg rfl (.inr rfl) (.inr rfl) (.inr rfl) ?_
    have : ({ s with workers := s.workers.eraseIdx i } : Server).lane c =
        { s.lane c with held := s.io.share c + x } :=
      Lane.ext rfl rfl rfl rfl rfl rfl rfl (congrArg (s.io.share c + ·) herase)
    rw [this, lane, held, hq]
    exact add_left_comm _ _ _
  · exact .of_eq (lane_workerLeaves h (hother hcd))

theorem moves_enqueueResponseTask {t : ResponseTask} (h : s.workers[i]? = some (.enqueueing t)) :
    Moves c ok (s.lane c) ((s.enqueueResponseTask i t).lane c) := by
  obtain ⟨x, hq, _, hset⟩ := queued_worker (c := c) h
  unfold enqueueResponseTask
  split
  · rename_i hst
    have hzero : Worker.share c (if t.closeAfter then .clearing t.connId else .leaving t.connId) =
        0 := by
      split <;> rfl
    by_cases hcd : c = t.connId
    · subst hcd
      refine .to (.drop t.index t.outcome (s.io.share t.connId + x) hst ?_)
        (Lane.ext rfl rfl rfl rfl rfl rfl rfl ?_)
      · simp only [lane, held, hq, Worker.share, ResponseTask.share, if_true]
        abel
      · refine (congrArg (s.io.share _ + ·) (hset _)).trans ?_
        rw [hzero, zero_add]
    · refine .of_eq (lane_worker h ?_)
      rw [hzero]
      simp [Worker.share, ResponseTask.share, Ne.symm hcd]
  · -- the token passes to the completed task
    refine .of_eq (Lane.ext rfl rfl rfl rfl rfl rfl rfl ?_)
    have hadd := queued_addCompleted (c := c)
      (s := { s with workers := s.workers.set i (.leaving t.connId) }) t
    refine (congrArg (s.io.share c + ·) hadd).trans ?_
    rw [hset, lane, held, hq]
    simp only [Worker.share, zero_add]

/-- A worker's last act is an event: what it holds passes to the event. -/
theorem lane_workerEvent (h : s.workers[i]? = some w) (f : Bool) (k : Nat)
    (hshare : PostDeliveryEvent.share c ⟨d, f, k⟩ = w.share c) :
    ({ s.enqueuePostDeliveryEvent d f k with workers := s.workers.eraseIdx i } : Server).lane c =
      s.lane c := by
  obtain ⟨x, hq, herase, _⟩ := queued_worker (c := c) h
  refine Lane.ext rfl rfl rfl rfl rfl rfl rfl ?_
  have hadd := queued_addEvent (c := c)
    (s := { s with workers := s.workers.eraseIdx i }) ⟨d, f, k⟩
  refine (congrArg (s.io.share c + ·) hadd).trans ?_
  rw [herase, hshare, lane, held, hq]

theorem moves_workerStep {o : Option HandleResult}
    (hclear : ∀ d, Worker.clearing d ∈ s.workers → s.stopping = true)
    (hok : ∀ t r, s.workers[i]? = some (.handling t) → o = some r → t.connId = c → ok r)
    (h : s.workerStep i o = some s') : Moves c ok (s.lane c) (s'.lane c) := by
  unfold workerStep at h
  split at h
  · cases h
  · -- `handle` ends
    rename_i t hw
    cases h
    obtain ⟨x, hq, _, hset⟩ := queued_worker (c := c) hw
    by_cases hcd : c = t.connId
    · subst hcd
      refine .to (.result t.index o (s.io.share t.connId + x) ?_ fun r ho => hok t r hw ho rfl) ?_
      · simp only [lane, held, hq, Worker.share, if_true]
        abel
      · refine (lane_record_self _).trans (Lane.ext rfl rfl rfl rfl rfl rfl rfl ?_)
        refine (congrArg (s.io.share _ + ·) (hset _)).trans ?_
        simp only [Worker.share, if_true]
        abel
    · refine .of_eq ((lane_record_ne hcd _).trans (lane_worker hw ?_))
      simp [Worker.share, Ne.symm hcd]
  · rename_i t o' hw
    split at h
    · cases h
      refine .of_eq (lane_worker hw ?_)
      cases o' <;> simp [Worker.share, ResponseTask.share, responseTask, ResponseTask.outcome]
    · rename_i hlock
      cases h
      have hreg : s.registered t.connId = false := by
        simp only [canLock, Bool.or_eq_true, not_or, Bool.not_eq_true] at hlock
        exact hlock.1
      exact moves_workerDrops hw hreg fun hcd => by simp [Worker.share, Ne.symm hcd]
  · rename_i t hw
    cases h
    exact moves_enqueueResponseTask hw
  · -- only a stopping server refuses a close task
    rename_i d hw
    cases h
    have hst := hclear d (List.mem_of_getElem? hw)
    have hlane : ({ s with workers := s.workers.set i (.leaving d) } : Server).lane c =
        s.lane c := lane_worker hw rfl
    by_cases hcd : c = d
    · subst hcd
      refine .to (.clear hst) ((lane_setContext_self (s := { s with
        workers := s.workers.set i (.leaving c) }) _).trans ?_)
      rw [hlane]
      rfl
    · exact .of_eq ((lane_setContext_ne (s := { s with
        workers := s.workers.set i (.leaving d) }) hcd _).trans hlane)
  · rename_i hw
    cases h
    exact .of_eq (lane_workerLeaves hw rfl)
  · rename_i m hw
    cases h
    exact .of_eq (lane_worker hw rfl)
  · rename_i m hw
    split at h
    · rename_i hfin
      cases h
      exact .of_eq (lane_workerEvent hw true m.index
        (by simp [Worker.share, MarkTask.share, PostDeliveryEvent.share, hfin]))
    · rename_i hfin
      split at h
      · cases h
        exact .of_eq (lane_worker hw (by simp [Worker.share, MarkTask.share, hfin]))
      · rename_i hreg
        cases h
        exact moves_workerDrops hw (by simpa using hreg) fun hcd => by
          simp [Worker.share, MarkTask.share, Ne.symm hcd]
  · -- the fence goes down, a wake-up follows
    rename_i d hw
    cases h
    obtain ⟨x, hq, _, hset⟩ := queued_worker (c := c) hw
    by_cases hcd : c = d
    · subst hcd
      refine .to (.release (s.io.share c + x) ?_) ((lane_setContext_self (s := { s with
        workers := s.workers.set i (.released c) }) _).trans
        (Lane.ext rfl rfl rfl rfl rfl rfl rfl ?_))
      · simp only [lane, held, hq, Worker.share, if_true]
        abel
      · refine (congrArg (s.io.share c + ·) (hset _)).trans ?_
        simp only [Worker.share, if_true]
        abel
    · refine .of_eq ((lane_setContext_ne (s := { s with
        workers := s.workers.set i (.released d) }) hcd _).trans (lane_worker hw ?_))
      simp [Worker.share, Ne.symm hcd]
  · rename_i d hw
    cases h
    exact .of_eq (lane_workerEvent hw false 0
      (by simp [Worker.share, PostDeliveryEvent.share]))
  · rename_i hw
    cases h
    exact .of_eq (lane_workerLeaves hw rfl)

/-! ## The simulation -/

theorem moves_ioStep (hs : s.Sound) (h : s.ioStep env = some s') :
    Moves c ok (s.lane c) (s'.lane c) := by
  obtain ⟨t, io, hstep, rfl⟩ := ioStep_cases h
  have hsame : ∀ {io io'}, s.io = io → Io.Alike c io io' →
      Moves c ok (s.lane c) (({ s with io := io' } : Server).lane c) := fun hio h =>
    .of_eq (lane_io (hio ▸ h))
  have hreg : ∀ {io d}, s.io = io → io.owner = some d → s.registered d = true := fun hio hd =>
    hs.io.owner _ (hio ▸ hd)
  have hremote : ∀ {e ops}, s.io = .drain (.remote e :: ops) → Io.Alike c s.io (.drain ops) :=
    fun hio => hio ▸ ⟨by simp [Io.share, IoOp.share], rfl, rfl, rfl⟩
  have hnext : ∀ {d p ops}, s.io = .submitNext d p ops → c ≠ d → Io.Alike c s.io (.drain ops) :=
    fun hio hcd => hio ▸ ⟨rfl, rfl, by simp [Io.granted, Ne.symm hcd], rfl⟩
  cases hstep with
  | readNothing hio | writeNothing hio | drained hio => exact hsame hio ⟨rfl, rfl, rfl, rfl⟩
  | packetsDone hio => exact hsame hio ⟨rfl, rfl, rfl, by simp [Io.unread]⟩
  | packetEmpty hio hp => exact hsame hio ⟨rfl, rfl, rfl, by simp [Io.unread, hp]⟩
  | readError hio | writeError hio =>
    exact moves_close _ (closing_idle fun _ => hio ▸ ⟨rfl, rfl, rfl, rfl⟩)
  | oversized chunk hio =>
    exact moves_close_context _ _ (closing_idle fun _ => hio ▸ ⟨rfl, rfl, rfl, rfl⟩)
  | readRefused hio =>
    refine moves_close _ (closing_idle fun hcd => hio ▸ ⟨rfl, rfl, ?_, ?_⟩)
    · simp [Io.granted, Ne.symm hcd]
    · simp [Io.unread, Ne.symm hcd]
  | received chunk hio _ hok => exact moves_received hio (hreg hio rfl) hok
  | packet hio hp => exact moves_packet hio hp
  | wrote n hio => exact moves_wrote n hio (hreg hio rfl)
  | readSubmitted hio hsub =>
    refine moves_submit hsub (by simp [hio, Io.granted]) (fun _ => ?_)
      fun hcd => hio ▸ ⟨rfl, rfl, ?_, rfl⟩
    · rw [hio]
      exact ⟨rfl, rfl, rfl, rfl⟩
    · simp [Io.granted, Ne.symm hcd]
  | nextSubmitted hio hsub =>
    refine moves_submit hsub (by simp [hio, Io.granted]) (fun _ => ?_) (hnext hio)
    rw [hio]
    exact ⟨rfl, rfl, rfl, rfl⟩
  | nextRefused hio =>
    exact moves_close_context _ _ ⟨hnext hio, fun _ => rfl, fun _ => rfl, fun _ => .inl rfl,
      fun _ => ⟨0, by rw [hio, zero_add]; rfl⟩⟩
  | takeRemote hio => exact .of_eq (lane_takeRemote (s := s) hio)
  | takeCompleted hio => exact .of_eq (lane_takeCompleted (s := s) hio)
  | takeEvents hio => exact .of_eq (lane_takeEvents (s := s) hio)
  | remoteSkipped hio => exact .of_eq (lane_io (hremote hio))
  | remotePushed hio _ _ hopen =>
    exact .trans (moves_push _ hopen) (Moves.of_eq (lane_io (s := s.pushTo _ _) (hremote hio)))
  | remoteFailed hio _ _ hopen => exact moves_pushClose _ _ hopen (hremote hio) rfl rfl
  | respondGone hio hclosed => exact moves_unregistered hclosed (respond_closing hio)
  | respondClosed hio => exact moves_close _ (respond_closing hio)
  | respondSilent hio hopen hresponse => exact moves_answerSilent hio hopen hresponse
  | responded hio hopen hresponse => exact moves_answer hio hopen hresponse
  | respondFailed hio hopen hresponse =>
    -- the response cannot be sent
    refine .trans (moves_answer hio hopen hresponse)
      (.trans (moves_close env.cleanup (round_closing rfl rfl)) ?_)
    rw [inRound, closeClientFd_withIo]
    exact .refl
  | @respondedDeferred t ops hio hopen hresponse =>
    refine .trans (moves_answer hio hopen hresponse) (Moves.of_eq ?_)
    exact lane_defer (s := s.respondTo t) .session .session (locals t false) ops _ rfl rfl rfl rfl
      rfl rfl
  | eventGone hio hclosed =>
    exact moves_unregistered hclosed ⟨event_alike hio, fun _ => rfl, fun _ => rfl,
      fun _ => .inl rfl, fun _ => ⟨_, by rw [hio]; rfl⟩⟩
  | eventFinished hio hfinish => exact moves_eventFinished hio hfinish
  | eventWoke hio hwake => exact moves_eventWoke hio hwake
  | @sessionNone loc ops hio haction =>
    refine moves_session (s.contexts loc.task.connId).authenticatedUserId hio rfl ?_ fun _ => rfl
    simp [HandleResult.sessionEvents, haction, Lane.record]
    rfl
  | @sessionBound loc ops hio haction =>
    refine moves_session loc.task.result.pendingSession.userId hio rfl ?_ fun hcd => by simp [hcd]
    simp [HandleResult.sessionEvents, haction, Lane.record]
  | sessionUnbound hio haction =>
    refine moves_session 0 hio rfl ?_ fun hcd => by simp [hcd]
    simp [HandleResult.sessionEvents, haction, Lane.record]
  | pushed hio _ _ hopen =>
    refine .trans (moves_push _ hopen) (Moves.of_eq (lane_io (s := s.pushTo _ _) ?_))
    exact round_alike hio rfl (by simp) (by simp) fun _ => rfl
  | pushFailed hio _ _ hopen =>
    exact moves_pushClose _ _ hopen (round_alike hio rfl rfl rfl fun _ => rfl) rfl rfl
  | crossRaised ids userId hio hopen => exact moves_crossRaised ids userId hio hopen _
  | crossSubmitted hio => exact .of_eq (lane_crossSubmitted hio)
  | crossRefused hio => exact moves_crossRefused hio
  | sameDeferred hio hids =>
    exact moves_sameDeferred hio (hs.io.locals _ _ _ hio (by simp)) hids
  | finishDeferred hio hdef =>
    refine moves_endRound hio _ ?_
    simp [hio, Io.share, RoundPos.share, RespLocals.share, hdef]
  | finished hio hdef => exact moves_finished hio hdef
  | pushesDone hio | pushSkipped hio | crossDone hio | crossGone hio | sameNone hio =>
    exact .of_eq (lane_io (round_alike hio rfl rfl rfl fun _ => rfl))

/-- The handler's part in a step: what `handle` returns at this label for a
request of connection `c`. -/
def HandlerOk (ok : ConnId → HandleResult → Prop) (s : Server) (l : Label) : Prop :=
  ∀ i r t, l = .worker i (some r) → s.workers[i]? = some (.handling t) → ok t.connId r

/-- Every step is a sequence of moves of the lane of `c`, unless it accepts `c`. -/
theorem lane_step {ok : ConnId → HandleResult → Prop} {l : Label} (hs : s.Sound)
    (hok : HandlerOk ok s l) (h : s.step l = some s')
    (hnew : c ≠ s.nextConnId ∨ ∀ peerIp, l ≠ .accept peerIp) :
    Moves c (ok c) (s.lane c) (s'.lane c) := by
  cases l with
  | io env => exact moves_ioStep hs h
  | take => exact moves_takeTask h
  | worker i o =>
    refine moves_workerStep hs.clearing (fun t r hw ho hcd => ?_) h
    subst hcd
    exact hok i r t (by rw [ho]) hw
  | remotePush e =>
    cases h
    exact .of_eq rfl
  | stop =>
    cases h
    exact .to .stop rfl
  | accept peerIp =>
    simp only [step] at h
    split at h
    · cases h
      have hne : c ≠ s.nextConnId := hnew.resolve_right fun h => h peerIp rfl
      refine .of_eq (Lane.ext ?_ rfl ?_ rfl rfl rfl rfl rfl) <;>
        simp [lane, registerConnection, hne]
    · cases h
  | readable d | writable d =>
    simp only [step, eventStep] at h
    split at h
    · rename_i hio
      split at h
      · cases h
        exact .of_eq (lane_io (by rw [hio]; exact ⟨rfl, rfl, rfl, rfl⟩))
      · cases h
    · cases h
  | workerResult =>
    simp only [step, eventStep] at h
    split at h
    · rename_i hio
      cases h
      refine .of_eq (lane_io ?_)
      rw [hio]
      exact ⟨by simp [Io.share, IoOp.share], rfl, rfl, rfl⟩
    · cases h
  | close d reason b =>
    simp only [step, eventStep] at h
    split at h
    · rename_i hio
      split at h
      · cases h
        have hmoves : Moves c (ok c) (s.lane c) _ := moves_close (d := d) b
          (closing_idle fun _ => by rw [hio]; exact ⟨rfl, rfl, rfl, rfl⟩)
        have heq : ({ s.closeClientFd d b with io := .idle } : Server) = s.closeClientFd d b := by
          rw [← hio, ← closeClientFd_io b]
        rwa [heq] at hmoves
      · cases h
    · cases h

/-! ## Lane invariants -/

theorem lane_accept (hb : (s.lane s.nextConnId).Blank) (peerIp : Bytes) :
    (s.registerConnection peerIp).lane s.nextConnId = Lane.fresh s.stopping peerIp := by
  refine Lane.ext ?_ rfl ?_ hb.history hb.granted hb.unread hb.round hb.held <;>
    simp [lane, registerConnection, Lane.fresh]

/-- A property of lanes that holds for unused and for fresh connections and is
kept by every move holds for every connection in every reachable state. -/
theorem lane_invariant {ok : ConnId → HandleResult → Prop} {P : ConnId → Lane → Prop}
    (hblank : ∀ c L, L.Blank → P c L) (hfresh : ∀ c st peerIp, P c (Lane.fresh st peerIp))
    (hmove : ∀ c L L', P c L → Move c (ok c) L L' → P c L') {s : Server}
    (hs : lts.Reach (HandlerOk ok) s) (c : ConnId) : P c (s.lane c) := by
  -- ids not given out yet have blank lanes
  have hall : ∀ s, lts.Reach (HandlerOk ok) s →
      (∀ c, s.nextConnId ≤ c → (s.lane c).Blank) ∧ ∀ c, P c (s.lane c) := by
    intro s hs
    refine Base.Lts.Inductive.relative (J := Sound) (I := fun s =>
      (∀ c, s.nextConnId ≤ c → (s.lane c).Blank) ∧ ∀ c, P c (s.lane c))
      (fun s hs => sound_inductive.invariant hs.reachable) ?_ ?_ hs
    · rintro s rfl
      have hb : ∀ c, (({} : Server).lane c).Blank := fun c =>
        ⟨rfl, rfl, rfl, rfl, rfl, by simp [lane, held, queued, Io.share]⟩
      exact ⟨fun c _ => hb c, fun c => hblank c _ (hb c)⟩
    · rintro s l s' hsound _ ⟨hb, hp⟩ hok hstep
      have hkeep : ∀ c, (c ≠ s.nextConnId ∨ ∀ peerIp, l ≠ .accept peerIp) →
          Moves c (ok c) (s.lane c) (s'.lane c) := fun c => lane_step hsound hok hstep
      by_cases hacc : ∃ peerIp, l = .accept peerIp
      · obtain ⟨peerIp, rfl⟩ := hacc
        have heq : s' = s.registerConnection peerIp := by
          change (if s.io = .idle then _ else none) = some s' at hstep
          split at hstep
          · exact (Option.some.inj hstep).symm
          · cases hstep
        refine ⟨fun c hc => ?_, fun c => ?_⟩
        · have hlt : s.nextConnId + 1 ≤ c := by
            rw [heq] at hc
            exact hc
          exact (hkeep c (.inl (Nat.ne_of_gt hlt))).keep (fun _ _ hb => hb.move)
            (hb c (Nat.le_of_succ_le hlt))
        · by_cases hc : c = s.nextConnId
          · subst hc
            rw [heq, lane_accept (hb _ le_rfl)]
            exact hfresh _ _ _
          · exact (hkeep c (.inl hc)).keep (hmove c) (hp c)
      · have hl : ∀ peerIp, l ≠ .accept peerIp := fun peerIp h => hacc ⟨peerIp, h⟩
        refine ⟨fun c hc => ?_, fun c => (hkeep c (.inr hl)).keep (hmove c) (hp c)⟩
        rw [step_nextConnId hstep hl] at hc
        exact (hkeep c (.inr hl)).keep (fun _ _ hb => hb.move) (hb c hc)
  exact (hall s hs).2 c

end Server
end ChatServer.Net
