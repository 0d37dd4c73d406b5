import ChatServer.Net.Guarantees

/-!
# Results on their way back

What `handle` returned travels from the worker through `completed_tasks_` to a
response round of the I/O thread. `Carried ok` says that every result on this
way meets `ok`, a condition on what the handler returns; it also says when the
connection of a round that comes to its session action is registered.

The only test before the session action is `weak_ptr::lock`, and a worker that
leaves its closure still holds the context. `session_actions_live` is what the
test is worth for handlers that answer whenever they bind or unbind, and
`session_action_on_closed` a run of another handler.
-/

namespace ChatServer.Net

open ChatServer.Codec ConnectionContext

def IoOp.response : IoOp → Option ResponseTask
  | .respond t => some t
  | _ => none

namespace Io

/-- The response tasks the I/O thread has taken and not begun. -/
def responses : Io → List ResponseTask
  | .drain ops => ops.filterMap IoOp.response
  | .round _ _ ops => ops.filterMap IoOp.response
  | .submitNext _ _ ops => ops.filterMap IoOp.response
  | _ => []

/-- The response task of the current round. -/
def task : Io → Option ResponseTask
  | .round _ loc _ => some loc.task
  | _ => none

/-- The response task whose session action comes next. -/
def session : Io → Option ResponseTask
  | .round .session loc _ => some loc.task
  | _ => none

theorem task_of_session {io : Io} {t : ResponseTask} (h : io.session = some t) :
    io.task = some t := by
  cases io with
  | round pos loc ops =>
    cases pos with
    | session => exact h
    | _ => cases h
  | _ => cases h

/-- The I/O thread goes on with what it has, past any session action. -/
structure Onward (io io' : Io) : Prop where
  responses : io'.responses ⊆ io.responses
  task : io'.task = none ∨ io'.task = io.task
  session : io'.session = none

end Io

/-- The result in a response task meets `ok`; a close task has none. -/
def ResponseTask.Meets (ok : ConnId → HandleResult → Prop) (t : ResponseTask) : Prop :=
  t.closeAfter = false → ok t.connId t.result

def Worker.Meets (ok : ConnId → HandleResult → Prop) : Worker → Prop
  | .handled t (some r) => ok t.connId r
  | .enqueueing t => t.Meets ok
  | _ => True

namespace Server

structure Carried (ok : ConnId → HandleResult → Prop) (s : Server) : Prop where
  workers : ∀ w ∈ s.workers, w.Meets ok
  completed : ∀ t ∈ s.completedTasks, t.Meets ok
  responses : ∀ t ∈ s.io.responses, t.Meets ok
  task : ∀ t ∈ s.io.task, ok t.connId t.result
  /-- a response was put into the send buffer of a registered connection -/
  session : ∀ t ∈ s.io.session, t.result.response ≠ [] → s.registered t.connId = true

section

variable {s s' : Server} {d : ConnId} {ok : ConnId → HandleResult → Prop}

/-! ## The I/O thread -/

/-- What the workers hand over. -/
def handedOver (s : Server) : List Worker × List ResponseTask := (s.workers, s.completedTasks)

theorem closeClientFd_handedOver (b : Bool) :
    (s.closeClientFd d b).handedOver = s.handedOver := by
  unfold closeClientFd
  split
  · cases b <;> rfl
  · rfl

theorem Carried.onward (h : Carried ok s) (hover : s'.handedOver = s.handedOver)
    (hio : s.io.Onward s'.io) : Carried ok s' := by
  obtain ⟨hworkers, hcompleted⟩ := Prod.mk.inj hover
  refine ⟨hworkers ▸ h.workers, hcompleted ▸ h.completed,
    fun t ht => h.responses t (hio.responses ht), fun t ht => ?_, fun t ht => ?_⟩
  · rcases hio.task with hnone | hsame
    · rw [hnone] at ht
      cases ht
    · exact h.task t (hsame ▸ ht)
  · rw [hio.session] at ht
    cases ht

theorem onward_idle (io : Io) : io.Onward .idle :=
  ⟨List.nil_subset _, .inl rfl, rfl⟩

/-- Positions in `onReadable` and `onWritable` have no response tasks. -/
theorem onward_owner (io : Io) {io' : Io} (h : io'.owner = some d) : io.Onward io' := by
  cases io' with
  | reading | packets | submitRead | writing => exact ⟨List.nil_subset _, .inl rfl, rfl⟩
  | _ => cases h

/-- The next position of the same round. -/
theorem onward_round {pos pos' : RoundPos} {loc loc' : RespLocals} {ops : List IoOp}
    (htask : loc'.task = loc.task) (hpos : pos' ≠ .session) :
    (Io.round pos loc ops).Onward (.round pos' loc' ops) := by
  refine ⟨List.Subset.refl _, .inr (congrArg some htask), ?_⟩
  cases pos' with
  | session => exact absurd rfl hpos
  | _ => rfl

/-- Taking the other queues adds no response task. -/
theorem filterMap_response_append {α : Type} {f : α → IoOp} (hf : ∀ a, (f a).response = none)
    (xs : List α) (ops : List IoOp) :
    (xs.map f ++ ops).filterMap IoOp.response = ops.filterMap IoOp.response := by
  rw [List.filterMap_append, List.filterMap_map]
  have hnone : xs.filterMap (IoOp.response ∘ f) = [] :=
    List.filterMap_eq_nil_iff.mpr fun a _ => hf a
  rw [hnone, List.nil_append]

/-- The I/O thread leaves its position for the remaining rounds. -/
theorem onward_drain {io : Io} {ops : List IoOp}
    (h : ops.filterMap IoOp.response ⊆ io.responses) : io.Onward (.drain ops) := ⟨h, .inl rfl, rfl⟩

theorem onward_afterPop {io : Io} {ops : List IoOp} (next : Option Bytes)
    (h : ops.filterMap IoOp.response ⊆ io.responses) : io.Onward (afterPop d ops next) := by
  cases next with
  | none => exact onward_drain h
  | some request => exact ⟨h, .inl rfl, rfl⟩

variable {env : Env} {i : Nat}

theorem submitRequestTask_handedOver {p : Bytes} {b : Bool}
    (h : s.submitRequestTask d p b = some s') : s'.handedOver = s.handedOver := by
  unfold submitRequestTask at h
  split at h
  · cases h
  · cases h
    rfl

/-- A response round begins: its task was taken from the queue, and only a registered
connection can be sent a response. -/
theorem Carried.begins (h : Carried ok s) {t : ResponseTask} {ops : List IoOp} (deferred : Bool)
    (hio : s.io = .drain (.respond t :: ops)) (hopen : t.closeAfter = false)
    (hover : s'.handedOver = s.handedOver) (hio' : s'.io = .round .session (locals t deferred) ops)
    (hreg : t.result.response ≠ [] → s'.registered t.connId = true) : Carried ok s' := by
  obtain ⟨hworkers, hcompleted⟩ := Prod.mk.inj hover
  refine ⟨hworkers ▸ h.workers, hcompleted ▸ h.completed, fun t' ht' => ?_, fun t' ht' => ?_,
    fun t' ht' => ?_⟩
  all_goals rw [hio'] at ht'
  · refine h.responses t' ?_
    rw [hio]
    exact List.mem_cons_of_mem _ ht'
  · obtain rfl : t = t' := Option.some.inj ht'
    refine h.responses t ?_ hopen
    rw [hio]
    exact List.mem_cons_self
  · obtain rfl : t = t' := Option.some.inj ht'
    exact hreg

theorem Carried.ioStep (h : Carried ok s) (hstep : s.ioStep env = some s') : Carried ok s' := by
  obtain ⟨t, io, hcase, rfl⟩ := ioStep_cases hstep
  -- the rounds that remain were there before
  have hrest : ∀ {io : Io} {ops : List IoOp}, s.io = io →
      ops.filterMap IoOp.response ⊆ io.responses →
      ops.filterMap IoOp.response ⊆ s.io.responses := fun hio hsub => hio ▸ hsub
  cases hcase with
  | readNothing | writeNothing | drained => exact h.onward rfl (onward_idle _)
  | readError | oversized | readRefused | writeError =>
    exact h.onward (closeClientFd_handedOver _) (onward_idle _)
  | received | packetsDone | packetEmpty | wrote => exact h.onward rfl (onward_owner _ rfl)
  | @packet c =>
    refine h.onward rfl (onward_owner (d := c) _ ?_)
    simp only
    split <;> rfl
  | readSubmitted hio hsub =>
    have hover := submitRequestTask_handedOver hsub
    exact h.onward hover (onward_owner _ rfl)
  | takeRemote hio | takeEvents hio =>
    refine h.onward rfl (onward_drain (hrest hio ?_))
    rw [filterMap_response_append fun _ => rfl]
    exact List.Subset.refl _
  | @takeCompleted ops hio =>
    refine ⟨h.workers, fun t ht => (nomatch ht), fun t ht => ?_, fun t ht => (nomatch ht),
      fun t ht => (nomatch ht)⟩
    have hmem : t ∈ (s.completedTasks.map IoOp.respond ++ ops).filterMap IoOp.response := ht
    rw [List.filterMap_append, List.mem_append] at hmem
    rcases hmem with hnew | hold
    · exact h.completed t (by simpa [IoOp.response] using hnew)
    · refine h.responses t ?_
      rw [hio]
      exact hold
  | respondSilent hio hopen hresponse =>
    exact h.begins false hio hopen rfl rfl fun hne => absurd hresponse hne
  | responded hio hopen _ hreg => exact h.begins false hio hopen rfl rfl fun _ => hreg
  | respondedDeferred hio hopen _ hreg => exact h.begins true hio hopen rfl rfl fun _ => hreg
  | respondGone hio => exact h.onward rfl (onward_drain (hrest hio (List.subset_cons_self _ _)))
  | respondClosed hio | respondFailed hio =>
    exact h.onward (closeClientFd_handedOver _)
      (onward_drain (hrest hio (List.subset_cons_self _ _)))
  | remoteFailed hio | nextRefused hio =>
    exact h.onward (closeClientFd_handedOver _)
      (onward_drain (hrest hio (List.Subset.refl _)))
  | nextSubmitted hio hsub =>
    have hover := submitRequestTask_handedOver hsub
    exact h.onward hover (onward_drain (hrest hio (List.Subset.refl _)))
  | remoteSkipped hio | remotePushed hio | eventGone hio | finishDeferred hio =>
    exact h.onward rfl (onward_drain (hrest hio (List.Subset.refl _)))
  | eventFinished hio | eventWoke hio | finished hio =>
    exact h.onward rfl (onward_afterPop _ (hrest hio (List.Subset.refl _)))
  | pushed hio => exact h.onward rfl (hio ▸ onward_round (note_task _ _) (by simp))
  | pushFailed hio =>
    exact h.onward (closeClientFd_handedOver _) (hio ▸ onward_round rfl (by simp))
  | sessionNone hio | sessionBound hio | sessionUnbound hio | pushesDone hio | pushSkipped hio
  | crossDone hio | crossGone hio | crossRaised _ _ hio | crossSubmitted hio | crossRefused hio
  | sameNone hio | sameDeferred hio => exact h.onward rfl (hio ▸ onward_round rfl (by simp))

/-! ## Workers -/

/-- A worker moves on; only what it now holds is new. -/
theorem Carried.setWorker (h : Carried ok s) {w : Worker} (hw : w.Meets ok)
    (hworkers : s'.workers = s.workers.set i w)
    (hcompleted : s'.completedTasks = s.completedTasks) (hio : s'.io = s.io)
    (hreg : s'.registered = s.registered) : Carried ok s' := by
  refine ⟨fun v hv => ?_, hcompleted ▸ h.completed, hio ▸ h.responses, hio ▸ h.task,
    by rw [hio, hreg]; exact h.session⟩
  rw [hworkers] at hv
  rcases List.mem_or_eq_of_mem_set hv with hold | rfl
  · exact h.workers v hold
  · exact hw

/-- A worker leaves its closure. -/
theorem Carried.eraseWorker (h : Carried ok s) (hworkers : s'.workers = s.workers.eraseIdx i)
    (hcompleted : s'.completedTasks = s.completedTasks) (hio : s'.io = s.io)
    (hreg : s'.registered = s.registered) : Carried ok s' := by
  refine ⟨fun v hv => h.workers v ?_, hcompleted ▸ h.completed, hio ▸ h.responses, hio ▸ h.task,
    by rw [hio, hreg]; exact h.session⟩
  rw [hworkers] at hv
  exact List.mem_of_mem_eraseIdx hv

theorem responseTask_meets {t : RequestTask} {o : Option HandleResult}
    (h : (Worker.handled t o).Meets ok) : (responseTask t o).Meets ok := by
  cases o with
  | none => exact fun hopen => nomatch hopen
  | some r => exact fun _ => h

theorem Carried.enqueueResponseTask (h : Carried ok s) {t : ResponseTask} (ht : t.Meets ok) :
    Carried ok (s.enqueueResponseTask i t) := by
  unfold Server.enqueueResponseTask
  split
  · refine h.setWorker (i := i) ?_ rfl rfl rfl rfl
    split <;> trivial
  · refine ⟨fun v hv => ?_, fun t' ht' => ?_, h.responses, h.task, h.session⟩
    · rcases List.mem_or_eq_of_mem_set hv with hold | rfl
      · exact h.workers v hold
      · trivial
    · rcases List.mem_append.mp ht' with hold | hnew
      · exact h.completed t' hold
      · rw [List.mem_singleton.mp hnew]
        exact ht

theorem Carried.workerStep (h : Carried ok s) {o : Option HandleResult}
    (hok : HandlerOk ok s (.worker i o)) (hstep : s.workerStep i o = some s') : Carried ok s' := by
  have hmeets : ∀ {w : Worker}, s.workers[i]? = some w → w.Meets ok := fun hw =>
    h.workers _ (List.mem_of_getElem? hw)
  unfold Server.workerStep at hstep
  split at hstep
  case h_1 => cases hstep
  case h_2 t hw =>
    cases hstep
    refine h.setWorker (i := i) (w := .handled t o) ?_ rfl rfl rfl rfl
    cases o with
    | none => trivial
    | some r => exact hok i r t rfl hw
  case h_3 t outcome hw =>
    split at hstep
    · cases hstep
      have ht : (Worker.enqueueing (responseTask t outcome)).Meets ok :=
        responseTask_meets (hmeets hw)
      exact h.setWorker ht rfl rfl rfl rfl
    · cases hstep
      exact h.eraseWorker rfl rfl rfl rfl
  case h_4 t hw =>
    cases hstep
    exact h.enqueueResponseTask (hmeets hw)
  case h_5 c hw =>
    cases hstep
    exact h.setWorker (i := i) (w := .leaving c) trivial rfl rfl rfl rfl
  case h_7 m hw =>
    cases hstep
    exact h.setWorker (i := i) (w := .delivered m) trivial rfl rfl rfl rfl
  case h_8 m hw =>
    split at hstep
    · cases hstep
      exact h.eraseWorker rfl rfl rfl rfl
    · split at hstep
      · cases hstep
        exact h.setWorker (i := i) (w := .found m.connId) trivial rfl rfl rfl rfl
      · cases hstep
        exact h.eraseWorker rfl rfl rfl rfl
  case h_9 c hw =>
    cases hstep
    exact h.setWorker (i := i) (w := .released c) trivial rfl rfl rfl rfl
  -- the last three leave their closure
  all_goals
    cases hstep
    exact h.eraseWorker rfl rfl rfl rfl

theorem Carried.takeTask (h : Carried ok s) (hstep : s.takeTask = some s') : Carried ok s' := by
  have hnew : ∀ {w : Worker}, w.Meets ok → ∀ v ∈ s.workers ++ [w], v.Meets ok := by
    intro w hw v hv
    rcases List.mem_append.mp hv with hold | hself
    · exact h.workers v hold
    · rw [List.mem_singleton.mp hself]
      exact hw
  unfold Server.takeTask at hstep
  split at hstep
  · cases hstep
  · split at hstep
    · simp only at hstep
      split at hstep
      all_goals
        cases hstep
        exact ⟨hnew trivial, h.completed, h.responses, h.task, h.session⟩
    · cases hstep

/-! ## The system -/

theorem inductive_carried (ok : ConnId → HandleResult → Prop) :
    lts.Inductive (HandlerOk ok) (Carried ok) where
  init := by
    rintro s rfl
    exact ⟨fun w hw => (nomatch hw), fun t ht => (nomatch ht), fun t ht => (nomatch ht),
      fun t ht => (nomatch ht), fun t ht => (nomatch ht)⟩
  step := by
    intro s l s' h hok hstep
    cases l with
    | io env => exact h.ioStep hstep
    | take => exact h.takeTask hstep
    | worker i o => exact h.workerStep hok hstep
    | remotePush e | stop =>
      cases hstep
      exact ⟨h.workers, h.completed, h.responses, h.task, h.session⟩
    | accept peerIp =>
      obtain ⟨hio, ⟨⟩⟩ := Option.ite_none_right_eq_some.mp hstep
      exact h.onward rfl (hio ▸ onward_idle _)
    | readable d | writable d =>
      obtain ⟨-, hstep⟩ := Option.ite_none_right_eq_some.mp hstep
      obtain ⟨-, ⟨⟩⟩ := Option.ite_none_right_eq_some.mp hstep
      exact h.onward rfl (onward_owner (d := d) _ rfl)
    | workerResult =>
      obtain ⟨-, ⟨⟩⟩ := Option.ite_none_right_eq_some.mp hstep
      exact h.onward rfl (onward_drain (List.nil_subset _))
    | close d reason b =>
      obtain ⟨hio, hstep⟩ := Option.ite_none_right_eq_some.mp hstep
      obtain ⟨-, ⟨⟩⟩ := Option.ite_none_right_eq_some.mp hstep
      refine h.onward (closeClientFd_handedOver b) ?_
      rw [closeClientFd_io, hio]
      exact onward_idle _

end

/-! ## Session actions -/

/-- The connection whose session action the I/O thread applies next. -/
def applies (s : Server) : Option ConnId :=
  (s.io.session.filter fun t => t.result.sessionAction ≠ .none).map (·.connId)

/-- If a handler never binds or unbinds without a response, session actions are
applied to registered connections only. -/
theorem session_actions_live {s : Server} {c : ConnId}
    (hs : lts.Reach (HandlerOk fun _ r => r.sessionAction ≠ .none → r.response ≠ []) s)
    (h : s.applies = some c) : s.registered c = true := by
  have hinv := (inductive_carried _).invariant hs
  obtain ⟨t, ht, rfl⟩ := Option.map_eq_some_iff.mp h
  obtain ⟨ht, haction⟩ := Option.filter_eq_some_iff.mp ht
  have htask : t ∈ s.io.task := Io.task_of_session ht
  exact hinv.session t ht (hinv.task t htask (of_decide_eq_true haction))

/-- A request is handled with the given result; its worker stays in the closure
after the hand-over, where it still holds the context. -/
def handledAndHeld (r : HandleResult) : List Label :=
  [.accept [], .readable 1, .io { recv := .data [97, 10] }, .io {}, .io {}, .io {}, .io {},
    .take, .worker 0 (some r), .worker 0 none, .worker 0 none]

/-- A login with and without a response. -/
def loginResult (response : Bytes) : HandleResult :=
  { response, sessionAction := .bind, pendingSession := ⟨true, 7, [117], [116]⟩ }

theorem session_actions_live_login :
    ∃ s : Server, s.applies = some 1 ∧ s.registered 1 = true := by
  have hok : lts.RunOk (HandlerOk fun _ r => r.sessionAction ≠ .none → r.response ≠ []) {}
      (handledAndHeld (loginResult [114]) ++ [.workerResult, .io {}, .io {}, .io {}]) := by
    refine runOk_of_results fun i r hmem c => ?_
    have hr : i = 0 ∧ r = loginResult [114] := by simpa [handledAndHeld] using hmem
    simp [hr.2, loginResult]
  obtain ⟨s, hs, h⟩ := Base.Lts.exists_reach_of_run
    (fun s : Server => decide (s.applies = some 1)) _ rfl hok (by decide +kernel)
  have happlies := of_decide_eq_true h
  exact ⟨s, happlies, session_actions_live hs happlies⟩

/-- The connection is closed while the worker still holds the context, and the
login has no response: the closed connection is bound. -/
theorem session_action_on_closed :
    ∃ s s' : Server, lts.Reachable s ∧ s.applies = some 1 ∧ s.registered 1 = false ∧
      s.step (.io {}) = some s' ∧ s'.authenticatedConnections 7 = [1] := by
  obtain ⟨s, hs, h⟩ := Base.Lts.exists_reach_of_run (M := lts) (s := {})
    (fun s => decide (s.applies = some 1) && !s.registered 1 &&
      (s.step (.io {})).any fun s' => decide (s'.authenticatedConnections 7 = [1]))
    (handledAndHeld (loginResult []) ++
      [.close 1 .peerError true, .workerResult, .io {}, .io {}, .io {}])
    rfl Base.Lts.runOk_true (by decide +kernel)
  simp only [Bool.and_eq_true, decide_eq_true_eq, Bool.not_eq_true', Option.any_eq_true] at h
  obtain ⟨⟨happlies, hclosed⟩, s', hstep, hbound⟩ := h
  exact ⟨s, s', hs, happlies, hclosed, hstep, hbound⟩

end Server
end ChatServer.Net
