import ChatServer.Net.Carried

/-!
# Who is connected and who is logged in

The roster of a server state is the part of it the session layer has to agree
with: the registered connections, the user each context is bound to, the pushes
each send buffer was given, and the cleanups waiting in the pool or running in
a worker. `step_alters` says once what a step can do to it.
-/

namespace ChatServer.Net

open ChatServer.Codec ConnectionContext
open Base (load)

/-- The connection whose `onConnectionClosed` the closure calls. -/
def Job.cleanupOf : Job → Option ConnId
  | .cleanup c => some c
  | _ => none

/-- The connection whose `onConnectionClosed` the worker is in. -/
def Worker.cleaningOf : Worker → Option ConnId
  | .cleaning c => some c
  | _ => none

def Event.pushed : Event → Option Bytes
  | .push payload => some payload
  | _ => none

@[ext]
structure Roster where
  nextConnId : ConnId
  registered : ConnId → Bool
  userOf : ConnId → UserId
  pushed : ConnId → List Bytes
  /-- cleanups in the pool's queue -/
  cleanups : Multiset ConnId
  /-- cleanups in a worker -/
  cleaning : Multiset ConnId

namespace Roster

variable (r : Roster)

def accept : Roster :=
  { r with
    nextConnId := r.nextConnId + 1
    registered := Function.update r.registered r.nextConnId true
    userOf := Function.update r.userOf r.nextConnId 0 }

def close (c : ConnId) (submitted : Bool) : Roster :=
  { r with
    registered := Function.update r.registered c false
    cleanups := (if submitted then {c} else 0) + r.cleanups }

def push (c : ConnId) (payload : Bytes) : Roster :=
  { r with pushed := Function.update r.pushed c (r.pushed c ++ [payload]) }

/-- The session action of a result. -/
def apply (c : ConnId) (result : HandleResult) : Roster :=
  match result.sessionAction with
  | .none => r
  | .bind => { r with userOf := Function.update r.userOf c result.pendingSession.userId }
  | .unbind => { r with userOf := Function.update r.userOf c 0 }

end Roster

/-- The push whose target is about to be checked: connection, user, payload. -/
def Io.push : Io → Option (ConnId × UserId × Bytes)
  | .drain (.remote e :: _) => some (e.targetConnectionId, e.toUserId, e.payload)
  | .round .pushes loc _ => loc.pushes.head?.map fun p => (p.targetConnId, p.targetUserId, p.payload)
  | _ => none

/-- A remote push that cannot be claimed is skipped before the check. -/
def Io.skips : Io → Env → Bool
  | .drain (.remote _ :: _), env => !env.claimed
  | _, _ => false

/-- The connection the I/O thread may close in its next step. -/
def Io.subject : Io → Option ConnId
  | .reading c => some c
  | .submitRead c _ _ => some c
  | .writing c => some c
  | .drain (.remote e :: _) => some e.targetConnectionId
  | .drain (.respond t :: _) => some t.connId
  | .round .pushes loc _ => loc.pushes.head?.map (·.targetConnId)
  | .submitNext c _ _ => some c
  | _ => none

/-- The I/O thread has a push or a session action in hand, not both, and may
close the target of the push. -/
theorem Io.of_push {io : Io} {c : ConnId} {u : UserId} {payload : Bytes}
    (h : io.push = some (c, u, payload)) : io.session = none ∧ io.subject = some c := by
  cases io with
  | drain ops =>
    cases ops with
    | nil => cases h
    | cons op ops =>
      cases op with
      | remote e =>
        obtain ⟨rfl, -⟩ := Prod.mk.inj (Option.some.inj h)
        exact ⟨rfl, rfl⟩
      | _ => cases h
  | round pos loc ops =>
    cases pos with
    | pushes =>
      obtain ⟨p, hp, heq⟩ := Option.map_eq_some_iff.mp h
      obtain ⟨rfl, -⟩ := Prod.mk.inj heq
      exact ⟨rfl, Option.map_eq_some_iff.mpr ⟨p, hp, rfl⟩⟩
    | _ => cases h
  | _ => cases h

/-- Whether the pool takes the cleanup of a connection closed in this step. -/
def Label.cleanup : Label → Bool
  | .io env => env.cleanup
  | .close _ _ cleanup => cleanup
  | _ => true

/-- The steps of the other threads. -/
def Label.offLoop : Label → Bool
  | .take | .worker _ _ | .remotePush _ | .stop => true
  | _ => false

namespace Server

def roster (s : Server) : Roster where
  nextConnId := s.nextConnId
  registered := s.registered
  userOf c := (s.contexts c).authenticatedUserId
  pushed c := (s.history c).trace.filterMap Event.pushed
  cleanups := load (fun job => (job.cleanupOf.toList : Multiset ConnId)) s.tasks
  cleaning := load (fun w => (w.cleaningOf.toList : Multiset ConnId)) s.workers

/-- The connection the step may close. -/
def subject (s : Server) : Label → Option ConnId
  | .io _ => s.io.subject
  | .close c _ _ => some c
  | _ => none

/-- The response task whose session action the step applies. -/
def action (s : Server) : Label → Option ResponseTask
  | .io _ => s.io.session
  | _ => none

/-- The connection the step registers. -/
def registers (s : Server) : Label → Option ConnId
  | .accept _ => some s.nextConnId
  | _ => none

/-- The connection whose cleanup a worker begins. -/
def begins (s : Server) : Label → Option ConnId
  | .take => s.tasks.head?.bind Job.cleanupOf
  | _ => none

/-- The connection whose cleanup a worker ends. -/
def ends (s : Server) : Label → Option ConnId
  | .worker i _ => s.workers[i]?.bind Worker.cleaningOf
  | _ => none

/-- A cleanup that ends was running. -/
theorem mem_cleaning_of_ends {s : Server} {l : Label} {c : ConnId} (h : s.ends l = some c) :
    c ∈ s.roster.cleaning := by
  cases l with
  | worker i o =>
    obtain ⟨w, hw, hc⟩ := Option.bind_eq_some_iff.mp h
    refine Base.mem_load.mpr ⟨w, List.mem_of_getElem? hw, ?_⟩
    rw [hc]
    exact List.mem_singleton_self c
  | _ => cases h

/-- What a step does to the roster. -/
inductive Alters (s : Server) (l : Label) : Roster → Prop
  | quiet (haction : s.action l = none) (hregisters : s.registers l = none)
      (hbegins : s.begins l = none) (hends : s.ends l = none) : Alters s l s.roster
  | accepts (peerIp : Bytes) (hl : l = .accept peerIp) : Alters s l s.roster.accept
  | closes (c : ConnId) (hsubject : s.subject l = some c) (hreg : s.registered c = true)
      (haction : s.action l = none) : Alters s l (s.roster.close c l.cleanup)
  | pushes (env : Env) (c : ConnId) (u : UserId) (payload : Bytes) (hl : l = .io env)
      (hpush : s.io.push = some (c, u, payload)) (hskips : s.io.skips env = false)
      (hbound : env.bound = true) (hreg : s.registered c = true) : Alters s l (s.roster.push c payload)
  | pushesAndCloses (env : Env) (c : ConnId) (u : UserId) (payload : Bytes) (hl : l = .io env)
      (hpush : s.io.push = some (c, u, payload)) (hskips : s.io.skips env = false)
      (hbound : env.bound = true) (hreg : s.registered c = true) :
      Alters s l ((s.roster.push c payload).close c env.cleanup)
  | applies (env : Env) (t : ResponseTask) (hl : l = .io env) (haction : s.action l = some t) :
      Alters s l (s.roster.apply t.connId t.result)
  | begins (c : ConnId) (rest : Multiset ConnId) (hl : l = .take) (hbegins : s.begins l = some c)
      (hqueue : s.roster.cleanups = {c} + rest) :
      Alters s l { s.roster with cleanups := rest, cleaning := {c} + s.roster.cleaning }
  | ends (i : Nat) (o : Option HandleResult) (c : ConnId) (rest : Multiset ConnId)
      (hl : l = .worker i o) (hends : s.ends l = some c)
      (hcleaning : s.roster.cleaning = {c} + rest) :
      Alters s l { s.roster with cleaning := rest }

section

variable {s s' : Server} {c d : ConnId} {env : Env}

/-! ## Updates that leave the roster alone -/

theorem user_update {f : ConnId → ConnectionContext} {ctx : ConnectionContext}
    (h : ctx.authenticatedUserId = (f c).authenticatedUserId) (d : ConnId) :
    (Function.update f c ctx d).authenticatedUserId = (f d).authenticatedUserId := by
  by_cases hd : d = c
  · subst hd
    simpa using h
  · simp [hd]

theorem trace_update {f : ConnId → History} {hist : History} (h : hist.trace = (f c).trace)
    (d : ConnId) : (Function.update f c hist d).trace = (f d).trace := by
  by_cases hd : d = c
  · subst hd
    simpa using h
  · simp [hd]

theorem roster_frame (hnext : s'.nextConnId = s.nextConnId) (hreg : s'.registered = s.registered)
    (huser : ∀ d, (s'.contexts d).authenticatedUserId = (s.contexts d).authenticatedUserId)
    (htrace : ∀ d, (s'.history d).trace = (s.history d).trace)
    (htasks : s'.roster.cleanups = s.roster.cleanups)
    (hworkers : s'.roster.cleaning = s.roster.cleaning) : s'.roster = s.roster :=
  Roster.ext hnext hreg (funext huser) (funext fun d => congrArg (List.filterMap _) (htrace d))
    htasks hworkers

@[simp] theorem roster_withIo (io : Io) : ({ s with io := io } : Server).roster = s.roster := rfl

theorem roster_setContext {ctx : ConnectionContext}
    (h : ctx.authenticatedUserId = (s.contexts c).authenticatedUserId) :
    (s.setContext c ctx).roster = s.roster :=
  roster_frame rfl rfl (user_update h) (fun _ => rfl) rfl rfl

theorem roster_record {e : Event} (h : e.pushed = none) : (s.record c e).roster = s.roster := by
  refine Roster.ext rfl rfl rfl (funext fun d => ?_) rfl rfl
  by_cases hd : d = c
  · subst hd
    simp [roster, record, setHistory, List.filterMap_append, h]
  · simp [roster, record, setHistory, hd]

theorem cleanups_addTask {job : Job} (h : job.cleanupOf = none)
    (htasks : s'.tasks = s.tasks ++ [job]) : s'.roster.cleanups = s.roster.cleanups := by
  simp [roster, htasks, h]

@[simp] theorem roster_append (payload : Bytes) : (s.append c payload).roster = s.roster :=
  roster_setContext rfl

/-- A push is appended and recorded. -/
theorem roster_push (payload : Bytes) :
    ((s.append c payload).record c (.push payload)).roster = s.roster.push c payload := by
  have happend : (s.append c payload).roster = s.roster := roster_append payload
  rw [← happend]
  refine Roster.ext rfl rfl rfl (funext fun d => ?_) rfl rfl
  by_cases hd : d = c
  · subst hd
    simp [roster, record, setHistory, Roster.push, List.filterMap_append, Event.pushed]
  · simp [roster, record, setHistory, Roster.push, hd]

theorem roster_closeClientFd (h : s.registered c = true) (b : Bool) :
    (s.closeClientFd c b).roster = s.roster.close c b := by
  unfold closeClientFd
  rw [if_pos h]
  refine Roster.ext ?_ ?_ (funext fun d => ?_) ?_ ?_ ?_
  all_goals cases b
  all_goals simp [roster, Roster.close, dispatchConnectionClosed, setContext, dropAuthenticated,
    Job.cleanupOf, add_comm]
  all_goals
    by_cases hd : d = c
    · subst hd
      simp [clearPendingSend, clearPendingRequests]
    · simp [hd]

theorem closeClientFd_of_not_registered (h : s.registered c = false) (b : Bool) :
    s.closeClientFd c b = s := by
  unfold closeClientFd
  rw [if_neg (by simp [h])]

theorem roster_bindAuthenticatedConnection (u : UserId) :
    (s.bindAuthenticatedConnection c u).roster =
      { s.roster with userOf := Function.update s.roster.userOf c u } := by
  refine Roster.ext rfl rfl (funext fun d => ?_) rfl rfl rfl
  by_cases hd : d = c
  · subst hd
    simp [roster, bindAuthenticatedConnection, setContext]
  · simp [roster, bindAuthenticatedConnection, unbindAuthenticatedConnection, dropAuthenticated,
      setContext, hd]

theorem roster_unbindAuthenticatedConnection :
    (s.unbindAuthenticatedConnection c).roster =
      { s.roster with userOf := Function.update s.roster.userOf c 0 } := by
  refine Roster.ext rfl rfl (funext fun d => ?_) rfl rfl rfl
  by_cases hd : d = c
  · subst hd
    simp [roster, unbindAuthenticatedConnection, setContext]
  · simp [roster, unbindAuthenticatedConnection, dropAuthenticated, setContext, hd]

theorem roster_registerConnection (peerIp : Bytes) :
    (s.registerConnection peerIp).roster = s.roster.accept := by
  refine Roster.ext rfl rfl (funext fun d => ?_) rfl rfl rfl
  by_cases hd : d = s.nextConnId
  · subst hd
    simp [roster, registerConnection, Roster.accept]
  · simp [roster, registerConnection, Roster.accept, hd]

/-! ## The I/O thread -/

/-- The step leaves the roster alone or closes `c`. -/
def MayClose (s : Server) (c : ConnId) (b : Bool) (r : Roster) : Prop :=
  r = s.roster ∨ s.registered c = true ∧ r = s.roster.close c b

theorem mayClose_closeClientFd {t : Server} (h : t.roster = s.roster) (b : Bool) :
    MayClose s c b (t.closeClientFd c b).roster := by
  have hreg : t.registered = s.registered := congrArg Roster.registered h
  by_cases hc : t.registered c = true
  · refine .inr ⟨hreg ▸ hc, ?_⟩
    rw [roster_closeClientFd hc, h]
  · rw [closeClientFd_of_not_registered (by simpa using hc)]
    exact .inl h

variable {l : Label} {loc : RespLocals} {ops : List IoOp} {i : Nat} {w : Worker}

/-- A step that may close a connection does nothing else. -/
theorem of_subject (h : s.subject l = some c) :
    s.registers l = none ∧ s.begins l = none ∧ s.ends l = none := by
  cases l with
  | io env => exact ⟨rfl, rfl, rfl⟩
  | close d reason b => exact ⟨rfl, rfl, rfl⟩
  | _ => cases h

theorem MayClose.alters {r : Roster} {b : Bool} (h : MayClose s c b r) (hcleanup : l.cleanup = b)
    (hsubject : s.subject l = some c) (haction : s.action l = none) : Alters s l r := by
  rcases h with rfl | ⟨hreg, rfl⟩
  · obtain ⟨hregisters, hbegins, hends⟩ := of_subject hsubject
    exact .quiet haction hregisters hbegins hends
  · exact hcleanup ▸ .closes c hsubject hreg haction

theorem startRequestOrQueue_user (ctx : ConnectionContext) (p : Bytes) :
    (ctx.startRequestOrQueue p).2.authenticatedUserId = ctx.authenticatedUserId := by
  rcases ctx.startRequestOrQueue_cases p with ⟨-, -, -, h⟩ | ⟨-, h⟩ <;> rw [h]

theorem finishRequestAndPopNext_user (ctx : ConnectionContext) :
    ctx.finishRequestAndPopNext.2.authenticatedUserId = ctx.authenticatedUserId := by
  rcases ctx.finishRequestAndPopNext_cases with ⟨-, h⟩ | ⟨_, _, -, -, h⟩ <;> rw [h]

theorem popNextRequestIfIdle_user (ctx : ConnectionContext) :
    ctx.popNextRequestIfIdle.2.authenticatedUserId = ctx.authenticatedUserId := by
  rcases ctx.popNextRequestIfIdle_cases with ⟨-, h⟩ | ⟨_, _, -, -, -, h⟩ <;> rw [h]

theorem submitRequestTask_roster {p : Bytes} {b : Bool}
    (h : s.submitRequestTask c p b = some s') : s'.roster = s.roster := by
  unfold submitRequestTask at h
  split at h
  · cases h
  · cases h
    refine roster_frame rfl rfl (fun _ => rfl) (trace_update ?_) ?_ rfl
    · rfl
    · exact cleanups_addTask rfl rfl

theorem respondTo_roster (t : ResponseTask) : (s.respondTo t).roster = s.roster :=
  (roster_record rfl).trans (roster_append _)

/-! ## Pushes -/

theorem alters_push {u : UserId} {payload : Bytes}
    (hpush : s.io.push = some (c, u, payload)) (hskips : s.io.skips env = false)
    (hbound : env.bound = true) (hreg : s.registered c = true) :
    Alters s (.io env) (s.pushTo c payload).roster ∧
      Alters s (.io env) ((s.pushTo c payload).closeClientFd c env.cleanup).roster := by
  have hroster : (s.pushTo c payload).roster = s.roster.push c payload := roster_push payload
  refine ⟨hroster ▸ .pushes env c u payload rfl hpush hskips hbound hreg, ?_⟩
  rw [roster_closeClientFd (s := s.pushTo c payload) hreg, hroster]
  exact .pushesAndCloses env c u payload rfl hpush hskips hbound hreg

/-! ## Steps -/

theorem ioStep_alters (h : s.ioStep env = some s') : Alters s (.io env) s'.roster := by
  obtain ⟨t, io, hstep, rfl⟩ := ioStep_cases h
  rw [roster_withIo]
  have hquiet : ∀ {io : Io} {r : Roster}, s.io = io → io.session = none → r = s.roster →
      Alters s (.io env) r := by
    intro io r hio hsession hr
    subst hr
    exact .quiet ((congrArg Io.session hio).trans hsession) rfl rfl rfl
  have hclose : ∀ {io : Io} {c : ConnId} {t : Server}, s.io = io → io.subject = some c →
      io.session = none → t.roster = s.roster →
      Alters s (.io env) (t.closeClientFd c env.cleanup).roster := by
    intro io c t hio hsubject hsession ht
    subst hio
    exact (mayClose_closeClientFd ht _).alters rfl hsubject hsession
  have happlies : ∀ {loc ops} {r : Roster}, s.io = .round .session loc ops →
      r = s.roster.apply loc.task.connId loc.task.result → Alters s (.io env) r := by
    intro loc ops r hio hr
    subst hr
    exact .applies env loc.task rfl (congrArg Io.session hio)
  have hmarked : ∀ {t : Server} (m : MarkTask), t.roster = s.roster →
      ({ t with tasks := t.tasks ++ [.mark m] } : Server).roster = s.roster := by
    intro t m ht
    rw [← ht]
    exact roster_frame rfl rfl (fun _ => rfl) (fun _ => rfl) (cleanups_addTask rfl rfl) rfl
  cases hstep with
  | readError hio | readRefused hio | writeError hio | respondClosed hio =>
    exact hclose hio rfl rfl rfl
  | oversized chunk hio | nextRefused hio => exact hclose hio rfl rfl (roster_setContext rfl)
  | respondFailed hio => exact hclose hio rfl rfl (respondTo_roster _)
  | received chunk hio | wrote n hio =>
    refine hquiet hio rfl (roster_frame rfl rfl (user_update ?_) (trace_update ?_) rfl rfl) <;> rfl
  | packet hio => exact hquiet hio rfl (roster_setContext (startRequestOrQueue_user _ _))
  | readSubmitted hio hsub | nextSubmitted hio hsub =>
    exact hquiet hio rfl (submitRequestTask_roster hsub)
  | eventFinished hio | finished hio =>
    exact hquiet hio rfl (roster_setContext (finishRequestAndPopNext_user _))
  | eventWoke hio => exact hquiet hio rfl (roster_setContext (popNextRequestIfIdle_user _))
  | responded hio => exact hquiet hio rfl (respondTo_roster _)
  | respondedDeferred hio => exact hquiet hio rfl (hmarked _ (respondTo_roster _))
  | crossSubmitted hio | sameDeferred hio => exact hquiet hio rfl (hmarked _ rfl)
  | crossRaised _ _ hio => exact hquiet hio rfl (roster_setContext rfl)
  | crossRefused hio =>
    refine hquiet hio rfl (roster_frame rfl rfl (user_update ?_) (fun _ => rfl) rfl rfl)
    rfl
  | sessionNone hio haction => exact happlies hio (by simp [Roster.apply, haction])
  | sessionBound hio haction =>
    refine happlies hio ((roster_record rfl).trans ?_)
    rw [roster_bindAuthenticatedConnection, Roster.apply, haction]
  | sessionUnbound hio haction =>
    refine happlies hio ((roster_record rfl).trans ?_)
    rw [roster_unbindAuthenticatedConnection, Roster.apply, haction]
  | remotePushed hio hclaimed hbound hreg =>
    exact (alters_push (congrArg Io.push hio) (by simp [hio, Io.skips, hclaimed]) hbound hreg).1
  | remoteFailed hio hclaimed hbound hreg =>
    exact (alters_push (congrArg Io.push hio) (by simp [hio, Io.skips, hclaimed]) hbound hreg).2
  | @pushed loc ops p rest hio hpushes hbound hreg =>
    have hpush : s.io.push = some (p.targetConnId, p.targetUserId, p.payload) := by
      simp [hio, Io.push, hpushes]
    exact (alters_push hpush (hio ▸ rfl) hbound hreg).1
  | @pushFailed loc ops p rest hio hpushes hbound hreg =>
    have hpush : s.io.push = some (p.targetConnId, p.targetUserId, p.payload) := by
      simp [hio, Io.push, hpushes]
    exact (alters_push hpush (hio ▸ rfl) hbound hreg).2
  | readNothing hio | packetsDone hio | packetEmpty hio | writeNothing hio | drained hio
  | takeRemote hio | takeCompleted hio | takeEvents hio | remoteSkipped hio | respondGone hio
  | respondSilent hio | eventGone hio | pushesDone hio | pushSkipped hio | crossDone hio
  | crossGone hio | sameNone hio | finishDeferred hio => exact hquiet hio rfl rfl

theorem takeTask_alters (h : s.takeTask = some s') : Alters s .take s'.roster := by
  unfold takeTask at h
  split at h
  · cases h
  · rename_i job rest htasks
    split at h
    · cases job with
      | request t =>
        cases h
        have hroster : (({ s with tasks := rest, workers := s.workers ++ [Worker.handling t] } :
            Server).record t.connId (.handleBegin t.request)).roster = s.roster := by
          refine (roster_record rfl).trans (roster_frame rfl rfl (fun _ => rfl) (fun _ => rfl) ?_ ?_)
          · simp [roster, htasks, Job.cleanupOf]
          · simp [roster, Worker.cleaningOf]
        exact hroster ▸ .quiet rfl rfl (by simp [begins, htasks, Job.cleanupOf]) rfl
      | mark m =>
        cases h
        have hroster : ({ s with tasks := rest, workers := s.workers ++ [Worker.delivering m] } :
            Server).roster = s.roster := by
          refine roster_frame rfl rfl (fun _ => rfl) (fun _ => rfl) ?_ ?_
          · simp [roster, htasks, Job.cleanupOf]
          · simp [roster, Worker.cleaningOf]
        exact hroster ▸ .quiet rfl rfl (by simp [begins, htasks, Job.cleanupOf]) rfl
      | cleanup c =>
        cases h
        have hroster : ({ s with tasks := rest, workers := s.workers ++ [Worker.cleaning c] } :
            Server).roster = { s.roster with
              cleanups := load (fun job => (job.cleanupOf.toList : Multiset ConnId)) rest
              cleaning := {c} + s.roster.cleaning } := by
          refine Roster.ext rfl rfl rfl rfl rfl ?_
          simp [roster, Worker.cleaningOf, add_comm]
        rw [hroster]
        refine .begins c _ rfl (by simp [begins, htasks, Job.cleanupOf]) ?_
        simp [roster, htasks, Job.cleanupOf]
    · cases h

/-- A worker that is in no cleanup moves on. -/
theorem worker_quiet {o : Option HandleResult} (hw : s.workers[i]? = some w)
    (hcleaning : w.cleaningOf = none) (hroster : s'.roster = s.roster) :
    Alters s (.worker i o) s'.roster := by
  rw [hroster]
  exact .quiet rfl rfl rfl (by simp [ends, hw, hcleaning])

theorem cleaning_set {v : Worker} (hw : s.workers[i]? = some w) (h : w.cleaningOf = none)
    (h' : v.cleaningOf = none) (hworkers : s'.workers = s.workers.set i v) :
    s'.roster.cleaning = s.roster.cleaning := by
  obtain ⟨rest, hl, -, hs⟩ :=
    Base.load_focus (fun w => (w.cleaningOf.toList : Multiset ConnId)) hw
  simp only [roster, hworkers, hl, hs, h, h']

theorem cleaning_erase (hw : s.workers[i]? = some w) (h : w.cleaningOf = none)
    (hworkers : s'.workers = s.workers.eraseIdx i) : s'.roster.cleaning = s.roster.cleaning := by
  obtain ⟨rest, hl, he, -⟩ :=
    Base.load_focus (fun w => (w.cleaningOf.toList : Multiset ConnId)) hw
  simp [roster, hworkers, hl, he, h]

theorem enqueueResponseTask_roster {t : ResponseTask} (hw : s.workers[i]? = some (.enqueueing t)) :
    (s.enqueueResponseTask i t).roster = s.roster := by
  unfold enqueueResponseTask
  split
  · refine roster_frame rfl rfl (fun _ => rfl) (fun _ => rfl) rfl (cleaning_set hw rfl ?_ rfl)
    split <;> rfl
  · exact roster_frame rfl rfl (fun _ => rfl) (fun _ => rfl) rfl
      (cleaning_set (v := .leaving t.connId) hw rfl rfl rfl)

theorem workerStep_alters {o : Option HandleResult} (h : s.workerStep i o = some s') :
    Alters s (.worker i o) s'.roster := by
  have hset : ∀ {w w' : Worker}, s.workers[i]? = some w → w.cleaningOf = none →
      w'.cleaningOf = none → ({ s with workers := s.workers.set i w' } : Server).roster = s.roster :=
    fun hw hn hn' => roster_frame rfl rfl (fun _ => rfl) (fun _ => rfl) rfl
      (cleaning_set hw hn hn' rfl)
  have herase : ∀ {w : Worker}, s.workers[i]? = some w → w.cleaningOf = none →
      ({ s with workers := s.workers.eraseIdx i } : Server).roster = s.roster :=
    fun hw hn => roster_frame rfl rfl (fun _ => rfl) (fun _ => rfl) rfl (cleaning_erase hw hn rfl)
  unfold workerStep at h
  split at h
  case h_1 => cases h
  case h_2 t hw =>
    cases h
    exact worker_quiet hw rfl ((roster_record rfl).trans (hset hw rfl rfl))
  case h_3 t outcome hw =>
    split at h
    · cases h
      exact worker_quiet hw rfl (hset hw rfl rfl)
    · cases h
      exact worker_quiet hw rfl (herase hw rfl)
  case h_4 t hw =>
    cases h
    exact worker_quiet hw rfl (enqueueResponseTask_roster hw)
  case h_5 c hw =>
    cases h
    refine worker_quiet hw rfl (roster_frame rfl rfl (user_update ?_) (fun _ => rfl) rfl ?_)
    · rfl
    · exact cleaning_set (v := .leaving c) hw rfl rfl rfl
  case h_6 c hw =>
    cases h
    exact worker_quiet hw rfl (herase hw rfl)
  case h_7 m hw =>
    cases h
    exact worker_quiet hw rfl (hset hw rfl rfl)
  case h_8 m hw =>
    split at h
    · cases h
      exact worker_quiet hw rfl (herase hw rfl)
    · split at h
      · cases h
        exact worker_quiet hw rfl (hset hw rfl rfl)
      · cases h
        exact worker_quiet hw rfl (herase hw rfl)
  case h_9 c hw =>
    cases h
    refine worker_quiet hw rfl (roster_frame rfl rfl (user_update ?_) (fun _ => rfl) rfl ?_)
    · rfl
    · exact cleaning_set (v := .released c) hw rfl rfl rfl
  case h_10 c hw =>
    cases h
    exact worker_quiet hw rfl (herase hw rfl)
  case h_11 c hw =>
    cases h
    obtain ⟨rest, hl, he, -⟩ :=
      Base.load_focus (fun w => (w.cleaningOf.toList : Multiset ConnId)) hw
    have hroster : ({ s with workers := s.workers.eraseIdx i } : Server).roster =
        { s.roster with cleaning := rest } := Roster.ext rfl rfl rfl rfl rfl he
    rw [hroster]
    exact .ends i o c rest rfl (by simp [ends, hw, Worker.cleaningOf]) hl

/-- Every step does to the roster what `Alters` lists, and nothing else. -/
theorem step_alters (h : s.step l = some s') : Alters s l s'.roster := by
  cases l with
  | io env => exact ioStep_alters h
  | take => exact takeTask_alters h
  | worker i o => exact workerStep_alters h
  | remotePush e | stop =>
    cases h
    exact .quiet rfl rfl rfl rfl
  | accept peerIp =>
    obtain ⟨-, ⟨⟩⟩ := Option.ite_none_right_eq_some.mp h
    exact roster_registerConnection peerIp ▸ .accepts peerIp rfl
  | readable c | writable c =>
    obtain ⟨-, h⟩ := Option.ite_none_right_eq_some.mp h
    obtain ⟨-, ⟨⟩⟩ := Option.ite_none_right_eq_some.mp h
    exact .quiet rfl rfl rfl rfl
  | workerResult =>
    obtain ⟨-, ⟨⟩⟩ := Option.ite_none_right_eq_some.mp h
    exact .quiet rfl rfl rfl rfl
  | close c reason b =>
    obtain ⟨-, h⟩ := Option.ite_none_right_eq_some.mp h
    obtain ⟨-, ⟨⟩⟩ := Option.ite_none_right_eq_some.mp h
    exact (mayClose_closeClientFd rfl b).alters rfl rfl rfl

/-- A step that gives a send buffer a push is the step of the push in hand. -/
theorem push_of_step {payload : Bytes} (h : s.step l = some s')
    (hpushed : s'.roster.pushed c = s.roster.pushed c ++ [payload]) :
    ∃ env u, l = .io env ∧ s.io.push = some (c, u, payload) ∧ s.io.skips env = false ∧
      env.bound = true ∧ s.registered c = true := by
  have hnew : s'.roster.pushed ≠ s.roster.pushed := by
    intro hsame
    rw [hsame] at hpushed
    exact List.cons_ne_nil _ _ (List.self_eq_append_right.mp hpushed)
  -- the push is given to one connection
  have hown : ∀ {d : ConnId} {body : Bytes},
      s'.roster.pushed = Function.update s.roster.pushed d (s.roster.pushed d ++ [body]) →
      d = c ∧ body = payload := by
    intro d body hupdate
    by_cases hd : c = d
    · subst hd
      rw [hupdate, Function.update_self] at hpushed
      exact ⟨rfl, List.singleton_inj.mp (List.append_cancel_left hpushed)⟩
    · rw [hupdate, Function.update_of_ne hd] at hpushed
      exact absurd (List.self_eq_append_right.mp hpushed) (List.cons_ne_nil _ _)
  have halters := step_alters h
  generalize hr : s'.roster = r at halters
  cases halters with
  | pushes env d u body hl hpush hskips hbound hreg
  | pushesAndCloses env d u body hl hpush hskips hbound hreg =>
    obtain ⟨rfl, rfl⟩ := hown (congrArg Roster.pushed hr)
    exact ⟨env, u, hl, hpush, hskips, hbound, hreg⟩
  | applies env t hl haction =>
    have happly := congrArg Roster.pushed hr
    unfold Roster.apply at happly
    split at happly <;> exact absurd happly hnew
  | _ => exact absurd (congrArg Roster.pushed hr) hnew

theorem takeTask_io (h : s.takeTask = some s') :
    s'.io = s.io ∧ s'.registered = s.registered := by
  unfold takeTask at h
  repeat' split at h
  all_goals cases h
  all_goals exact ⟨rfl, rfl⟩

/-- Steps of the other threads leave the I/O thread and the registrations
alone. -/
theorem step_offLoop (h : s.step l = some s') (hl : l.offLoop = true) :
    s'.io = s.io ∧ s'.registered = s.registered := by
  cases l with
  | take => exact takeTask_io h
  | worker i o => exact ⟨(workerStep_io h).2.1, (workerStep_io h).1⟩
  | remotePush e =>
    cases h
    exact ⟨rfl, rfl⟩
  | stop =>
    cases h
    exact ⟨rfl, rfl⟩
  | _ => cases hl

/-- While the I/O thread is busy, it goes on or another thread takes a step. -/
theorem offLoop_of_busy (h : s.step l = some s') (hio : s.io ≠ .idle) :
    (∃ env, l = .io env) ∨ l.offLoop = true := by
  cases l with
  | io env => exact .inl ⟨env, rfl⟩
  | take | worker i o | remotePush e | stop => exact .inr rfl
  | _ =>
    obtain ⟨hidle, -⟩ := Option.ite_none_right_eq_some.mp h
    exact absurd hidle hio

end
end Server
end ChatServer.Net
