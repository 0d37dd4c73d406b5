import ChatServer.App.Process

/-!
# The process is a custody

`Process.view` is what a process shows of its connections. Every step of the
process is a step of the custody (`step_evolves`); what is known about its
session actions depends on the handler.
-/

namespace ChatServer.App

open Net Service

/-! ## Sessions -/

section

variable (m : SessionManager) (c : ConnId)

theorem getSession_clearSession :
    (UserService.clearSession m c).1.getSession = Function.update m.getSession c none := by
  unfold UserService.clearSession
  split
  · rename_i hnone
    rw [← hnone, Function.update_eq_self]
  · rfl

theorem getSession_logoutSession :
    (UserService.logoutSession m c).1.getSession = Function.update m.getSession c none := by
  unfold UserService.logoutSession
  split
  · rename_i hnone
    rw [← hnone, Function.update_eq_self]
  · rfl

/-- A session that is refused changes nothing. -/
theorem getSession_bindSession (session : ConnectionSession) :
    (UserService.bindSession m c session 0).1.getSession =
      if session.authenticated = false ∨ session.userId ≤ 0 ∨ session.username = [] then
        m.getSession
      else Function.update m.getSession c (some session) := by
  unfold UserService.bindSession SessionManager.bindSession
  split_ifs
  · rfl
  · show Function.update (m.detach c).connectionToSession c _ = _
    rw [SessionManager.detach_connectionToSession]
    rfl

/-- A session action is about its connection only. -/
theorem getSession_applySession (r : HandleResult) :
    (applySession m c r).getSession =
      Function.update m.getSession c ((applySession m c r).getSession c) := by
  unfold applySession
  cases r.sessionAction with
  | none => rw [Function.update_eq_self]
  | bind =>
    simp only [getSession_bindSession]
    split_ifs
    · rw [Function.update_eq_self]
    · rw [Function.update_self]
  | unbind => simp only [getSession_logoutSession, Function.update_self]

theorem getSession_onConnectionClosed :
    (onConnectionClosed m (some c)).getSession = Function.update m.getSession c none :=
  getSession_clearSession m c

end

/-! ## The view -/

/-- What can be seen of a roster and the sessions. -/
def custody (r : Roster) (m : SessionManager) (accepted begun finished : List ConnId) :
    Custody where
  nextConnId := r.nextConnId
  registered := r.registered
  userOf := r.userOf
  session := m.getSession
  cleanups := r.cleanups
  cleaning := r.cleaning
  accepted := accepted
  begun := begun
  finished := finished

namespace Process

def view (s : Process) : Custody :=
  custody s.net.roster s.sessions s.accepted s.begun s.finished

variable {s s' : Process} {l : Net.Label} {net : Server}
  {P : ConnId → UserId → Option ConnectionSession → Prop}

theorem inPlace_eq_none (h : net.registered = s.net.registered) : s.inPlace l net = none := by
  unfold inPlace
  rw [h]
  exact Option.filter_eq_none_iff.mpr fun c _ => by simp

theorem inPlace_of_close {c : ConnId} (hsubject : s.net.subject l = some c)
    (hreg : s.net.registered c = true) (hclosed : net.registered c = false) :
    s.inPlace l net = if l.cleanup then none else some c := by
  unfold inPlace
  rw [hsubject]
  cases hcleanup : l.cleanup <;> simp [Option.filter, hreg, hclosed]

/-- A step that closes a connection and changes nothing else the custody shows. -/
theorem follow_close {c : ConnId} {r : Roster} (hsubject : s.net.subject l = some c)
    (hreg : s.net.registered c = true) (haction : s.net.action l = none)
    (hr : net.roster = r.close c l.cleanup)
    (hsame : ∀ m a b f, custody r m a b f = custody s.net.roster m a b f) :
    Custody.Evolves P s.view (s.follow l net).view := by
  obtain ⟨hregisters, hbegins, hends⟩ := Server.of_subject hsubject
  have hclosed : net.registered = Function.update r.registered c false :=
    congrArg Roster.registered hr
  have hplace : s.inPlace l net = if l.cleanup then none else some c :=
    inPlace_of_close hsubject hreg (by rw [hclosed, Function.update_self])
  have hview := hsame s.sessions s.accepted s.begun s.finished
  cases hcleanup : l.cleanup with
  | true =>
    have heq : (s.follow l net).view = { s.view with
        registered := Function.update s.view.registered c false
        cleanups := {c} + s.view.cleanups } := by
      rw [view, view, ← hview]
      simp only [follow, hregisters, hbegins, hends, haction, hplace, hcleanup, hr]
      simp [custody, Roster.close, onConnectionClosed]
    rw [heq]
    exact .close c hreg
  | false =>
    have heq : (s.follow l net).view = { s.view with
        registered := Function.update s.view.registered c false
        session := Function.update s.view.session c none
        begun := s.view.begun ++ [c]
        finished := s.view.finished ++ [c] } := by
      rw [view, view, ← hview]
      simp only [follow, hregisters, hbegins, hends, haction, hplace, hcleanup, hr]
      simp [custody, Roster.close, getSession_onConnectionClosed]
    rw [heq]
    exact .closeInPlace c hreg

/-- Every step of the network layer is a step of the custody. -/
theorem follow_evolves (h : s.net.step l = some net)
    (hP : ∀ t, s.net.action l = some t → t.result.sessionAction ≠ .none →
      P t.connId ((s.net.roster.apply t.connId t.result).userOf t.connId)
        ((applySession s.sessions t.connId t.result).getSession t.connId)) :
    Custody.Evolves P s.view (s.follow l net).view := by
  have halters := Server.step_alters h
  generalize hr : net.roster = r at halters
  cases halters with
  | quiet haction hregisters hbegins hends =>
    have hplace : s.inPlace l net = none := inPlace_eq_none (congrArg Roster.registered hr)
    have heq : (s.follow l net).view = s.view := by
      simp only [view, follow, haction, hregisters, hbegins, hends, hplace, hr]
      simp [onConnectionClosed]
    rw [heq]
    exact .same
  | accepts peerIp hl =>
    subst hl
    have heq : (s.follow (.accept peerIp) net).view = { s.view with
        nextConnId := s.view.nextConnId + 1
        registered := Function.update s.view.registered s.view.nextConnId true
        userOf := Function.update s.view.userOf s.view.nextConnId 0
        accepted := s.view.accepted ++ [s.view.nextConnId] } := by
      simp only [view, follow, hr]
      simp [custody, Roster.accept, onConnectionClosed, Server.ends, Server.begins,
        Server.action, Server.registers, inPlace, Server.subject, Server.roster]
    rw [heq]
    exact .accept
  | closes c hsubject hreg haction =>
    exact follow_close hsubject hreg haction hr fun _ _ _ _ => rfl
  | pushes env c u payload hl hpush _ _ hreg =>
    subst hl
    have hplace : s.inPlace (.io env) net = none :=
      inPlace_eq_none (congrArg Roster.registered hr)
    have haction : s.net.action (.io env) = none := (Io.of_push hpush).1
    have heq : (s.follow (.io env) net).view = s.view := by
      simp only [view, follow, haction, hplace, hr]
      simp [onConnectionClosed, custody, Roster.push, Server.ends, Server.begins,
        Server.registers]
    rw [heq]
    exact .same
  | pushesAndCloses env c u payload hl hpush _ _ hreg =>
    subst hl
    obtain ⟨haction, hsubject⟩ := Io.of_push hpush
    exact follow_close (l := .io env) hsubject hreg haction hr fun _ _ _ _ => rfl
  | applies env t hl haction =>
    subst hl
    have hregistered : net.registered = s.net.registered := by
      have hreg := congrArg Roster.registered hr
      unfold Roster.apply at hreg
      split at hreg <;> exact hreg
    have hplace : s.inPlace (.io env) net = none := inPlace_eq_none hregistered
    have heq : (s.follow (.io env) net).view =
        custody (s.net.roster.apply t.connId t.result)
          (applySession s.sessions t.connId t.result) s.accepted s.begun s.finished := by
      simp only [view, follow, haction, hplace, hr]
      simp [onConnectionClosed, Server.ends, Server.begins, Server.registers]
    rw [heq]
    by_cases hnone : t.result.sessionAction = .none
    · have hsame : custody (s.net.roster.apply t.connId t.result)
          (applySession s.sessions t.connId t.result) s.accepted s.begun s.finished = s.view := by
        simp only [Roster.apply, applySession, hnone]
        rfl
      rw [hsame]
      exact .same
    · have hact : custody (s.net.roster.apply t.connId t.result)
          (applySession s.sessions t.connId t.result) s.accepted s.begun s.finished =
          { s.view with
            userOf := Function.update s.view.userOf t.connId
              ((s.net.roster.apply t.connId t.result).userOf t.connId)
            session := Function.update s.view.session t.connId
              ((applySession s.sessions t.connId t.result).getSession t.connId) } := by
        refine Custody.ext ?_ ?_ ?_ (getSession_applySession _ _ _) ?_ ?_ rfl rfl rfl
        all_goals
          unfold Roster.apply
          cases haction' : t.result.sessionAction with
          | none => exact absurd haction' hnone
          | bind => simp [custody, view, Server.roster]
          | unbind => simp [custody, view, Server.roster]
      rw [hact]
      exact .act t.connId _ _ (hP t haction hnone)
  | begins c rest hl hbegins hqueue =>
    subst hl
    have heq : (s.follow .take net).view = { s.view with
        cleanups := rest
        cleaning := {c} + s.view.cleaning
        begun := s.view.begun ++ [c] } := by
      simp only [view, follow, hbegins, hr]
      simp [custody, onConnectionClosed, Server.ends, Server.action, Server.registers, inPlace,
        Server.subject]
    rw [heq]
    exact .begin c rest hqueue
  | ends i o c rest hl hends hcleaning =>
    subst hl
    have heq : (s.follow (.worker i o) net).view = { s.view with
        cleaning := rest
        session := Function.update s.view.session c none
        finished := s.view.finished ++ [c] } := by
      simp only [view, follow, hends, hr]
      simp [custody, getSession_onConnectionClosed, Server.begins, Server.action,
        Server.registers, inPlace, Server.subject]
    rw [heq]
    exact .finish c rest hcleaning

/-- Every step of the process is a step of the custody. -/
theorem step_evolves {l : Label} (h : s.step l = some s')
    (hP : ∀ t, s.net.io.session = some t → t.result.sessionAction ≠ .none →
      P t.connId ((s.net.roster.apply t.connId t.result).userOf t.connId)
        ((applySession s.sessions t.connId t.result).getSession t.connId)) :
    Custody.Evolves P s.view s'.view := by
  cases l with
  | net l =>
    obtain ⟨-, h⟩ := Option.ite_none_right_eq_some.mp h
    obtain ⟨net, hnet, rfl⟩ := Option.map_eq_some_iff.mp h
    refine follow_evolves hnet fun t ht => hP t ?_
    cases l with
    | io env => exact ht
    | _ => cases ht
  | check =>
    simp only [step] at h
    split at h
    · obtain rfl := Option.some.inj h
      exact .same
    · cases h
  | leaveLoop =>
    obtain ⟨-, ⟨⟩⟩ := Option.ite_none_right_eq_some.mp h
    have heq : ({ s with phase := .closing, net := stopped s.net } : Process).view = s.view := by
      unfold stopped
      split <;> rfl
    rw [heq]
    exact .same
  | stopPool | finish =>
    obtain ⟨-, ⟨⟩⟩ := Option.ite_none_right_eq_some.mp h
    exact .same

end Process
end ChatServer.App
