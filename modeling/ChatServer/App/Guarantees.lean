import ChatServer.App.Refine
import ChatServer.Handler.Requests

/-!
# What the process guarantees

* `pushes_reach_bound_user` — a push goes to a connection that is open and
  logged in as its user, for every handler;
* `cleanup_exactly_once` — each connection is cleaned up once, for good, and
  before `start()` returns;
* `layers_agree` — the network layer and the session layer know the same user.

The last two are for `MessageHandler`: the process keeps `Agreement` because a
session action is applied to an open connection only.
-/

namespace ChatServer.App

open Net Service

namespace Process

variable {s s' : Process}

/-! ## Any handler -/

theorem inductive_ledger : process.Inductive (fun _ _ => True) fun s => s.view.Ledger where
  init := by
    rintro s rfl
    exact ⟨fun _ hc => (nomatch hc), List.nodup_nil, fun _ => rfl, fun _ => rfl⟩
  step s l s' h _ hstep := by
    have hevolves : Custody.Evolves (fun _ _ _ => True) s.view s'.view :=
      step_evolves hstep fun _ _ _ => trivial
    exact h.evolves hevolves

/-- What the phases of `start()` have brought about. -/
structure Settled (s : Process) : Prop where
  idle : s.phase ≠ .serving → s.net.io = .idle
  closed : s.phase = .draining ∨ s.phase = .returned → ∀ c, s.net.registered c = false
  drained : s.phase = .returned → s.net.tasks = [] ∧ s.net.workers = []

/-- The other threads do not disturb the shutdown. -/
theorem Settled.offLoop (h : Settled s) {l : Net.Label} {net : Server}
    (hl : l.offLoop = true) (hnet : s.net.step l = some net) : Settled (s.follow l net) := by
  obtain ⟨hio, hreg⟩ := Server.step_offLoop hnet hl
  refine ⟨fun hphase => hio.trans (h.idle hphase), fun hphase c => ?_, fun hphase => ?_⟩
  · show net.registered c = false
    rw [hreg]
    exact h.closed hphase c
  · obtain ⟨htasks, hworkers⟩ := h.drained hphase
    cases l with
    | take => simp [Server.step, Server.takeTask, htasks] at hnet
    | worker i o => simp [Server.step, Server.workerStep, hworkers] at hnet
    | remotePush e | stop =>
      cases hnet
      exact ⟨htasks, hworkers⟩
    | _ => cases hl

theorem Settled.net (h : Settled s) {l : Net.Label} {net : Server}
    (hadmits : s.phase.admits l = true) (hnet : s.net.step l = some net) :
    Settled (s.follow l net) := by
  by_cases hoff : l.offLoop = true
  · exact h.offLoop hoff hnet
  · cases hphase : s.phase with
    | serving =>
      have hserving : (s.follow l net).phase = .serving := hphase
      exact ⟨fun hne => absurd hserving hne, fun hlate => by simp [hserving] at hlate,
        fun hlate => by simp [hserving] at hlate⟩
    | closing =>
      have hclosing : (s.follow l net).phase = .closing := hphase
      refine ⟨fun _ => ?_, fun hlate => by simp [hclosing] at hlate,
        fun hlate => by simp [hclosing] at hlate⟩
      rw [hphase] at hadmits
      cases l with
      | close c reason b =>
        obtain ⟨hidle, hnet⟩ := Option.ite_none_right_eq_some.mp hnet
        obtain ⟨-, ⟨⟩⟩ := Option.ite_none_right_eq_some.mp hnet
        exact (Server.closeClientFd_io b).trans hidle
      | _ => exact absurd hadmits hoff
    | draining | returned =>
      rw [hphase] at hadmits
      exact absurd hadmits hoff

theorem settled (hs : process.Reachable s) : Settled s := by
  refine Base.Lts.Inductive.relative (J := fun s => s.view.Ledger)
    (fun s hs => inductive_ledger.invariant hs) ?_ ?_ hs
  · rintro s rfl
    exact ⟨fun hphase => absurd rfl hphase, fun hphase => by simp at hphase,
      fun hphase => by simp at hphase⟩
  · intro s l s' hledger _ h _ hstep
    cases l with
    | net l =>
      obtain ⟨hok, hstep⟩ := Option.ite_none_right_eq_some.mp hstep
      obtain ⟨net, hnet, rfl⟩ := Option.map_eq_some_iff.mp hstep
      exact h.net (Bool.and_eq_true_iff.mp hok).1 hnet
    | check =>
      simp only [process, step] at hstep
      split at hstep
      · obtain rfl := Option.some.inj hstep
        exact ⟨h.idle, h.closed, h.drained⟩
      · cases hstep
    | leaveLoop =>
      obtain ⟨⟨-, hidle⟩, ⟨⟩⟩ := Option.ite_none_right_eq_some.mp hstep
      refine ⟨fun _ => ?_, fun hphase => by simp at hphase, fun hphase => by simp at hphase⟩
      show (stopped s.net).io = .idle
      unfold stopped
      split <;> exact hidle
    | stopPool =>
      obtain ⟨⟨hphase, hclosed⟩, ⟨⟩⟩ := Option.ite_none_right_eq_some.mp hstep
      refine ⟨fun _ => h.idle (by simp [hphase]), fun _ c => ?_, fun hphase => by simp at hphase⟩
      by_cases hc : c < s.net.nextConnId
      · exact hclosed c hc
      · by_contra hopen
        have hopen : s.net.registered c = true := by simpa using hopen
        exact hc (hledger.fresh c (hledger.registered_mem hopen))
    | finish =>
      obtain ⟨⟨hphase, htasks, hworkers⟩, ⟨⟩⟩ := Option.ite_none_right_eq_some.mp hstep
      exact ⟨fun _ => h.idle (by simp [hphase]), fun _ => h.closed (.inl hphase),
        fun _ => ⟨htasks, hworkers⟩⟩

/-! ## Pushes -/

/-- The answer for the push in hand is still right, as long as its target is
open. -/
def Checked (s : Process) : Prop :=
  ∀ b, s.checked = some b → ∃ c u payload, s.net.io.push = some (c, u, payload) ∧
    (s.net.registered c = true → UserService.isConnectionBoundToUser s.sessions c u = b)

/-- A cleanup leaves the sessions of open connections alone. -/
theorem getSession_of_ends (hledger : s.view.Ledger) {l : Net.Label} {net : Server} {c : ConnId}
    (hl : l.offLoop = true) (hnet : s.net.step l = some net)
    (hreg : s.net.registered c = true) :
    (s.follow l net).sessions.getSession c = s.sessions.getSession c := by
  obtain ⟨-, hregistered⟩ := Server.step_offLoop hnet hl
  have hplace : s.inPlace l net = none := inPlace_eq_none hregistered
  have haction : s.net.action l = none := by
    cases l with
    | io env => cases hl
    | _ => rfl
  simp only [follow, haction, hplace, Option.or_none]
  cases hends : s.net.ends l with
  | none => rfl
  | some d =>
    have hne : c ≠ d := by
      rintro rfl
      have hone := hledger.at_most_one c
      have hrunning : 0 < s.view.cleaning.count c :=
        Multiset.count_pos.mpr (Server.mem_cleaning_of_ends hends)
      rw [show s.view.registered c = true from hreg, Bool.toNat_true] at hone
      omega
    rw [getSession_onConnectionClosed, Function.update_of_ne hne]

/-- Only the network layer writes to send buffers. -/
theorem history_of_step {l : Label} (h : s.step l = some s') (hl : ∀ l', l ≠ .net l') :
    s'.net.history = s.net.history := by
  cases l with
  | net l => exact absurd rfl (hl l)
  | check =>
    simp only [step] at h
    split at h
    · obtain rfl := Option.some.inj h
      rfl
    · cases h
  | leaveLoop =>
    obtain ⟨-, ⟨⟩⟩ := Option.ite_none_right_eq_some.mp h
    show (stopped s.net).history = s.net.history
    unfold stopped
    split <;> rfl
  | stopPool | finish =>
    obtain ⟨-, ⟨⟩⟩ := Option.ite_none_right_eq_some.mp h
    rfl

theorem Checked.net (hledger : s.view.Ledger) (h : Checked s) {l : Net.Label} {net : Server}
    (hnet : s.net.step l = some net) : Checked (s.follow l net) := by
  intro b hb
  by_cases hio : ∃ env, l = .io env
  · obtain ⟨env, rfl⟩ := hio
    cases hb
  · have hsame : s.checked = some b := by
      cases l with
      | io env => exact absurd ⟨env, rfl⟩ hio
      | _ => exact hb
    obtain ⟨c, u, payload, hpush, hbound⟩ := h b hsame
    have hbusy : s.net.io ≠ .idle := by
      intro hidle
      rw [hidle] at hpush
      cases hpush
    have hoff : l.offLoop = true := (Server.offLoop_of_busy hnet hbusy).resolve_left hio
    obtain ⟨hio', hreg'⟩ := Server.step_offLoop hnet hoff
    refine ⟨c, u, payload, (congrArg Io.push hio').trans hpush, fun hreg => ?_⟩
    have hreg : s.net.registered c = true := (congrFun hreg' c).symm.trans hreg
    rw [← hbound hreg]
    unfold UserService.isConnectionBoundToUser
    rw [getSession_of_ends hledger hoff hnet hreg]

theorem checked_invariant (hs : process.Reachable s) : Checked s := by
  refine Base.Lts.Inductive.relative (J := fun s => s.view.Ledger)
    (fun s hs => inductive_ledger.invariant hs) ?_ ?_ hs
  · rintro s rfl b hb
    cases hb
  · intro s l s' hledger _ h _ hstep
    cases l with
    | net l =>
      obtain ⟨-, hstep⟩ := Option.ite_none_right_eq_some.mp hstep
      obtain ⟨net, hnet, rfl⟩ := Option.map_eq_some_iff.mp hstep
      exact h.net hledger hnet
    | check =>
      simp only [process, step] at hstep
      split at hstep
      · rename_i c u payload _ hpush
        obtain rfl := Option.some.inj hstep
        exact fun b hb => ⟨c, u, payload, hpush, fun _ => Option.some.inj hb⟩
      · cases hstep
    | leaveLoop =>
      obtain ⟨⟨-, hidle⟩, ⟨⟩⟩ := Option.ite_none_right_eq_some.mp hstep
      intro b hb
      obtain ⟨c, u, payload, hpush, -⟩ := h b hb
      rw [hidle] at hpush
      cases hpush
    | stopPool | finish =>
      obtain ⟨-, ⟨⟩⟩ := Option.ite_none_right_eq_some.mp hstep
      exact h

/-! ## `MessageHandler` -/

/-- The handler's results are answered ones. -/
theorem handlerOk {w : Wiring} {l : Net.Label} (h : ByMessageHandler w s (.net l)) :
    Server.HandlerOk (fun _ r => Handler.Answered r) s.net l := by
  rintro i r t rfl hw
  exact (Handler.handle_answered w t.connId t.request t.peerIp).of_yields (h t hw)

theorem inductive_carried (w : Wiring) :
    process.Inductive (ByMessageHandler w)
      fun s => s.net.Carried fun _ r => Handler.Answered r where
  init := by
    rintro s rfl
    exact (Server.inductive_carried _).init _ rfl
  step s l s' h hok hstep := by
    cases l with
    | net l =>
      obtain ⟨-, hstep⟩ := Option.ite_none_right_eq_some.mp hstep
      obtain ⟨net, hnet, rfl⟩ := Option.map_eq_some_iff.mp hstep
      exact (Server.inductive_carried _).step _ _ _ h (handlerOk hok) hnet
    | check =>
      simp only [process, step] at hstep
      split at hstep
      · obtain rfl := Option.some.inj hstep
        exact h
      · cases hstep
    | leaveLoop =>
      obtain ⟨-, ⟨⟩⟩ := Option.ite_none_right_eq_some.mp hstep
      show (stopped s.net).Carried _
      unfold stopped
      split
      · exact h
      · exact ⟨h.workers, h.completed, h.responses, h.task, h.session⟩
    | stopPool =>
      obtain ⟨-, ⟨⟩⟩ := Option.ite_none_right_eq_some.mp hstep
      exact h
    | finish =>
      obtain ⟨-, ⟨⟩⟩ := Option.ite_none_right_eq_some.mp hstep
      exact ⟨h.workers, fun t ht => absurd ht List.not_mem_nil, h.responses, h.task, h.session⟩

/-- A session action of an answered result does the same in both layers. -/
theorem mirrors_applySession {r : HandleResult} (hr : Handler.Answered r) (roster : Roster)
    (m : SessionManager) (c : ConnId) (haction : r.sessionAction ≠ .none) :
    Custody.Mirrors ((roster.apply c r).userOf c) ((applySession m c r).getSession c) := by
  unfold Roster.apply applySession
  cases hkind : r.sessionAction with
  | none => exact absurd hkind haction
  | bind =>
    obtain ⟨hauth, huser, hname⟩ := hr.session hkind
    have hfine : ¬ (r.pendingSession.authenticated = false ∨ r.pendingSession.userId ≤ 0 ∨
        r.pendingSession.username = []) := by
      rintro (hno | hno | hno)
      · rw [hauth] at hno
        cases hno
      · exact absurd huser (Int.not_lt.mpr hno)
      · exact hname hno
    simp only [getSession_bindSession, if_neg hfine, Function.update_self]
    exact ⟨hauth, rfl, huser⟩
  | unbind =>
    simp only [getSession_logoutSession, Function.update_self]
    rfl

/-- Session actions are applied to open connections. -/
theorem live_action {t : ResponseTask} (h : s.net.Carried fun _ r => Handler.Answered r)
    (ht : s.net.io.session = some t) (haction : t.result.sessionAction ≠ .none) :
    s.view.Live t.connId ((s.net.roster.apply t.connId t.result).userOf t.connId)
      ((applySession s.sessions t.connId t.result).getSession t.connId) := by
  have hanswered := h.task t (Io.task_of_session ht)
  exact ⟨h.session t ht hanswered.response, mirrors_applySession hanswered _ _ _ haction⟩

theorem agreement {w : Wiring} (hs : process.Reach (ByMessageHandler w) s) : s.view.Agreement := by
  refine Base.Lts.Inductive.relative
    (J := fun s => s.view.Ledger ∧ s.net.Carried fun _ r => Handler.Answered r)
    (I := fun s => s.view.Agreement)
    (fun s hs => ⟨inductive_ledger.invariant hs.reachable, (inductive_carried w).invariant hs⟩)
    ?_ ?_ hs
  · rintro s rfl
    exact ⟨fun _ hc => absurd rfl hc, fun _ hc => (nomatch hc)⟩
  · rintro s l s' ⟨hledger, hcarried⟩ _ h _ hstep
    exact h.evolves hledger (step_evolves hstep fun _ => live_action hcarried)

end Process

/-! ## Guarantees -/

open Process

variable {s s' : Process}

/-- Connection 1 sends a packet and gets the outcome of the handler. -/
def served (packet : Bytes) (outcome : Option HandleResult) : List Label :=
  let labels : List Net.Label :=
    [.accept [], .readable 1, .io { recv := .data (packet ++ [10]) }, .io {}, .io {}, .io {},
      .io {}, .take, .worker 0 outcome, .worker 0 none, .worker 0 none, .worker 0 none, .workerResult]
  (labels ++ List.replicate 10 (Net.Label.io {})).map Label.net

/-- For every handler: when a push payload is appended to the send buffer of a
connection, the connection is registered and its session is authenticated for
the user the push is addressed to. -/
theorem pushes_reach_bound_user {l : Label} {c : ConnId} {payload : Bytes}
    (hs : process.Reachable s) (h : s.step l = some s')
    (happend : (s'.net.history c).trace = (s.net.history c).trace ++ [.push payload]) :
    ∃ u, s.net.io.push = some (c, u, payload) ∧ s.net.registered c = true ∧
      ∃ session, s.sessions.getSession c = some session ∧ session.authenticated = true ∧
        session.userId = u := by
  cases l with
  | net l =>
    obtain ⟨hok, h⟩ := Option.ite_none_right_eq_some.mp h
    obtain ⟨net, hnet, rfl⟩ := Option.map_eq_some_iff.mp h
    have hpushed : net.roster.pushed c = s.net.roster.pushed c ++ [payload] := by
      show (net.history c).trace.filterMap Event.pushed = _
      rw [show (net.history c).trace = _ from happend, List.filterMap_append]
      rfl
    obtain ⟨env, u, rfl, hpush, hskips, hbound, hreg⟩ := Server.push_of_step hnet hpushed
    -- the step was decided by an answer that still holds
    have hchecked : s.checked = some true := by
      simpa [answered, hpush, hskips, hbound] using (Bool.and_eq_true_iff.mp hok).2
    obtain ⟨c', u', payload', hpush', hanswer⟩ := checked_invariant hs true hchecked
    obtain ⟨rfl, rfl, rfl⟩ : c = c' ∧ u = u' ∧ payload = payload' := by
      simpa [hpush] using hpush'
    obtain ⟨session, hsession, hfor⟩ := (Option.any_eq_true ..).mp (hanswer hreg)
    simp only [Bool.and_eq_true, decide_eq_true_eq] at hfor
    exact ⟨u, hpush, hreg, session, hsession, hfor.1, hfor.2⟩
  | _ =>
    rw [history_of_step h fun l hl => nomatch hl] at happend
    exact absurd (List.self_eq_append_right.mp happend) (List.cons_ne_nil _ _)

/-- A remote push to user 7 on connection 1, who has just logged in. -/
theorem pushes_reach_bound_user_remote :
    ∃ s s' : Process, s.step (.net (.io {})) = some s' ∧
      (s'.net.history 1).trace = (s.net.history 1).trace ++ [.push [112]] ∧
      ∃ u, s.net.io.push = some (1, u, [112]) ∧ s.net.registered 1 = true ∧
        ∃ session, s.sessions.getSession 1 = some session ∧ session.authenticated = true ∧
          session.userId = u := by
  obtain ⟨s, hs, h⟩ := Base.Lts.exists_reach_of_run (M := process) (s := {})
    (fun s => (s.step (.net (.io {}))).any fun s' =>
      decide ((s'.net.history 1).trace = (s.net.history 1).trace ++ [Event.push [112]]))
    (served [97] (some (Server.loginResult [114])) ++
      [.net (.remotePush ⟨1, 7, [112]⟩), .net .workerResult, .net (.io {}), .check])
    rfl Base.Lts.runOk_true (by decide +kernel)
  obtain ⟨s', hstep, happend⟩ := (Option.any_eq_true ..).mp h
  have happend := of_decide_eq_true happend
  exact ⟨s, s', hstep, happend, pushes_reach_bound_user hs hstep happend⟩

/-! ## `MessageHandler` at work -/

/-- The row of user 7. -/
def bob : Db.UserRecord := ⟨7, str "bob", str "hash", str "Bob"⟩

/-- The answers during bob's login. -/
def bobLogsIn : ∀ γ, Call γ → Option γ
  | _, .getSession _ => some none
  | _, .findByUsername _ => some ⟨.ok, some bob⟩
  | _, .verify _ _ => some true
  | _, .needsRehash _ => some false
  | _, .getRandom count => some (some (List.replicate count 0))
  | _, _ => none

theorem bobLogsIn_stored : ∀ γ op, ∀ r ∈ bobLogsIn γ op, Handler.Stored γ op r := by
  intro γ op r hr
  cases op with
  | findByUsername username =>
    obtain rfl := Option.some.inj hr
    intro user huser
    obtain rfl := Option.some.inj huser
    exact ⟨by decide, by decide⟩
  | getToken token => cases hr
  | _ => trivial

def loginPacket : Bytes :=
  str ("\x7b\"msg_type\":\"login\",\"seq\":1,\"data\":" ++
    "\x7b\"username\":\"bob\",\"password\":\"secret\"\x7d\x7d")

/-- What `handle` does with the packet. -/
def loginOutcome : Option HandleResult :=
  ((Handler.handle Handler.plainWiring loginPacket 1 []).run bobLogsIn).getD none

/-- The outcomes of the workers are those of the answers above. -/
def BobLogsIn (s : Process) : Label → Prop
  | .net (.worker i outcome) =>
    match s.net.workers[i]? with
    | some (.handling t) => (Handler.handle Handler.plainWiring t.request t.connId t.peerIp).run
        bobLogsIn = some outcome
    | _ => True
  | _ => True

instance (s : Process) (l : Label) : Decidable (BobLogsIn s l) := by
  unfold BobLogsIn
  split
  · split <;> infer_instance
  · infer_instance

theorem byMessageHandler_of_bobLogsIn (s : Process) (l : Label) (h : BobLogsIn s l) :
    ByMessageHandler Handler.plainWiring s l := by
  unfold ByMessageHandler
  split
  · intro t ht
    simp only [BobLogsIn, ht] at h
    exact Base.Prog.yields_of_run bobLogsIn_stored h
  · trivial

/-- A call that is over stays over. -/
theorem finished_of_step {c : ConnId} (s : Process) (l : Label) (s' : Process)
    (hc : c ∈ s.finished) (h : process.step s l = some s') : c ∈ s'.finished := by
  cases l with
  | net l =>
    obtain ⟨-, h⟩ := Option.ite_none_right_eq_some.mp h
    obtain ⟨net, -, rfl⟩ := Option.map_eq_some_iff.mp h
    exact List.mem_append_left _ hc
  | check =>
    simp only [process, step] at h
    split at h
    · obtain rfl := Option.some.inj h
      exact hc
    · cases h
  | leaveLoop | stopPool | finish =>
    obtain ⟨-, ⟨⟩⟩ := Option.ite_none_right_eq_some.mp h
    exact hc

/-- With `MessageHandler`: `onConnectionClosed` is called at most once and for
registered connections only; a connection whose call is over has no session now
or later; and when `start()` returns, every connection had its call, all calls
are over and no session is left. -/
theorem cleanup_exactly_once {w : Wiring} (hs : process.Reach (ByMessageHandler w) s) :
    s.accepted.Nodup ∧ s.begun.Nodup ∧ s.begun ⊆ s.accepted ∧
    (∀ c ∈ s.finished, ∀ labels t, process.RunOk (ByMessageHandler w) s labels →
      process.run s labels = some t → t.sessions.getSession c = none) ∧
    (s.phase = .returned → s.begun.Perm s.accepted ∧ s.finished.Perm s.accepted ∧
      ∀ c, s.sessions.getSession c = none) := by
  have hledger := inductive_ledger.invariant hs.reachable
  have hagree := agreement hs
  have hcount : ∀ c, s.begun.count c ≤ s.accepted.count c := by
    intro c
    have haccount := hledger.account c
    exact haccount ▸ Nat.le_add_left _ _
  refine ⟨hledger.nodup, List.nodup_iff_count_le_one.mpr fun c => ?_, fun c hc => ?_,
    fun c hc labels t hok hrun => ?_, fun hphase => ?_⟩
  · exact (hcount c).trans (List.nodup_iff_count_le_one.mp hledger.nodup c)
  · exact List.count_pos_iff.mp (Nat.lt_of_lt_of_le (List.count_pos_iff.mpr hc) (hcount c))
  · have ht := Base.Lts.reach_of_run hs hok hrun
    have hlater : c ∈ t.finished := Base.Lts.of_run finished_of_step hc hrun
    exact (agreement ht).session_of_finished (inductive_ledger.invariant ht.reachable) hlater
  · have hsettled := settled hs.reachable
    obtain ⟨htasks, hworkers⟩ := hsettled.drained hphase
    have hquiet : s.view.Quiescent := by
      refine ⟨hsettled.closed (.inr hphase), ?_, ?_⟩
      · simp [view, custody, Server.roster, htasks]
      · simp [view, custody, Server.roster, hworkers]
    obtain ⟨hbegun, hfinished⟩ := hledger.of_quiescent hquiet
    exact ⟨hbegun, hfinished, hagree.of_quiescent hquiet⟩

/-- Bob logs in, and the server shuts down. -/
theorem cleanup_exactly_once_login :
    ∃ s, process.Reach (ByMessageHandler Handler.plainWiring) s ∧ s.phase = .returned ∧
      s.accepted = [1] ∧ s.finished.Perm s.accepted ∧ ∀ c, s.sessions.getSession c = none := by
  have hok : process.RunOk BobLogsIn {} (served loginPacket loginOutcome ++
      [.leaveLoop, .net (.close 1 .serverStop true), .stopPool, .net .take, .net (.worker 0 none),
        .finish]) := by decide +kernel
  obtain ⟨s, hs, h⟩ := Base.Lts.exists_reach_of_run
    (fun s : Process => decide (s.phase = .returned ∧ s.accepted = [1])) _ rfl hok
    (by decide +kernel)
  obtain ⟨hphase, haccepted⟩ := of_decide_eq_true h
  have hs := hs.mono byMessageHandler_of_bobLogsIn
  obtain ⟨-, -, -, -, hreturned⟩ := cleanup_exactly_once hs
  exact ⟨s, hs, hphase, haccepted, (hreturned hphase).2⟩

/-- With `MessageHandler`: the context of an open connection has a user exactly
if the connection has an authenticated session of that user. -/
theorem layers_agree {w : Wiring} (hs : process.Reach (ByMessageHandler w) s) {c : ConnId}
    (hreg : s.net.registered c = true) (u : UserId) :
    (s.net.contexts c).authenticatedUserId = u ∧ 0 < u ↔
      ∃ session, s.sessions.getSession c = some session ∧ session.authenticated = true ∧
        session.userId = u := by
  have hmirrors : Custody.Mirrors (s.net.contexts c).authenticatedUserId
      (s.sessions.getSession c) := (agreement hs).mirrors c hreg
  cases hsession : s.sessions.getSession c with
  | none =>
    rw [hsession] at hmirrors
    refine ⟨fun h => ?_, fun h => ?_⟩
    · rw [show _ = (0 : Int) from hmirrors] at h
      exact absurd h.2 (h.1 ▸ lt_irrefl _)
    · obtain ⟨session, hsome, -⟩ := h
      cases hsome
  | some session =>
    rw [hsession] at hmirrors
    obtain ⟨hauth, huser, hpos⟩ := hmirrors
    refine ⟨fun h => ⟨session, rfl, hauth, huser.trans h.1⟩, fun h => ?_⟩
    obtain ⟨session', hsome, -, huser'⟩ := h
    obtain rfl := Option.some.inj hsome
    exact ⟨huser.symm.trans huser', huser' ▸ huser ▸ hpos⟩

/-- After bob's login. -/
theorem layers_agree_login :
    ∃ s, process.Reach (ByMessageHandler Handler.plainWiring) s ∧ s.net.registered 1 = true ∧
      (s.net.contexts 1).authenticatedUserId = 7 ∧
      ∃ session, s.sessions.getSession 1 = some session ∧ session.authenticated = true ∧
        session.userId = 7 := by
  have hok : process.RunOk BobLogsIn {} (served loginPacket loginOutcome) := by decide +kernel
  obtain ⟨s, hs, h⟩ := Base.Lts.exists_reach_of_run
    (fun s : Process => s.net.registered 1 && decide ((s.net.contexts 1).authenticatedUserId = 7))
    _ rfl hok (by decide +kernel)
  simp only [Bool.and_eq_true, decide_eq_true_eq] at h
  have hs := hs.mono byMessageHandler_of_bobLogsIn
  exact ⟨s, hs, h.1, h.2, (layers_agree hs h.1 7).mp ⟨h.2, by decide⟩⟩

end ChatServer.App
