import ChatServer.Service.UserService
import Mathlib.Data.List.Induction
import Mathlib.Data.List.Pairwise

/-!
# The two maps of `SessionManager`

`connection_to_session_` and `user_to_connections_` after any sequence of
`BindSession` and `ClearSession` calls (each holds the mutex for its whole
duration, so the calls of all threads form one sequence).

* `Update`, `run` — the calls and the manager after them;
* `lastBind` — when a connection was last bound;
* `Inverse` — the invariant: the lists of the second map are the sessions of
  the first, oldest binding first.
-/

namespace ChatServer.Service.SessionManager

/-- The calls that change a session manager. -/
inductive Update
  | bindSession (conn : ConnId) (session : ConnectionSession)
  | clearSession (conn : ConnId)

/-- Make a call; a session that is refused changes nothing. -/
def update (m : SessionManager) : Update → SessionManager
  | .bindSession conn session => (m.bindSession conn session).getD m
  | .clearSession conn => m.clearSession conn

/-- The manager after some calls. -/
def run (calls : List Update) : SessionManager := calls.foldl update {}

/-- The sessions `BindSession` accepts. -/
def Accepted (session : ConnectionSession) : Prop :=
  ¬ (session.authenticated = false ∨ session.userId ≤ 0 ∨ session.username = [])

instance (session : ConnectionSession) : Decidable (Accepted session) :=
  inferInstanceAs (Decidable (¬ _))

/-- A successful `BindSession` of the connection. -/
def Update.binds (conn : ConnId) : Update → Bool
  | .bindSession c session => decide (c = conn ∧ Accepted session)
  | .clearSession _ => false

/-- The number of the call that last bound a connection, counted from 1; 0 if
none did. -/
def lastBind (calls : List Update) (conn : ConnId) : Nat :=
  calls.length - calls.reverse.findIdx (Update.binds conn)

/-- The connection's session belongs to the user. -/
def BoundTo (m : SessionManager) (conn : ConnId) (user : UserId) : Prop :=
  ∃ session, m.getSession conn = some session ∧ session.userId = user

variable {m m' : SessionManager} {calls : List Update} {conn : ConnId} {user : UserId}
  {session : ConnectionSession}

/-! ## When a connection was last bound -/

theorem lastBind_le (calls : List Update) (conn : ConnId) : lastBind calls conn ≤ calls.length :=
  Nat.sub_le _ _

theorem lastBind_concat (u : Update) :
    lastBind (calls ++ [u]) conn =
      if u.binds conn then calls.length + 1 else lastBind calls conn := by
  unfold lastBind
  rw [List.reverse_append, List.reverse_singleton, List.singleton_append, List.findIdx_cons,
    List.length_append, List.length_singleton]
  cases u.binds conn with
  | true => rfl
  | false => exact Nat.add_sub_add_right _ 1 _

/-- A call that binds another connection, or none, is not its last bind. -/
theorem lastBind_concat_of_not {u : Update} (h : u.binds conn = false) :
    lastBind (calls ++ [u]) conn = lastBind calls conn := by
  rw [lastBind_concat, h]
  rfl

/-! ## One call -/

theorem getD_update {f : UserId → Option (List ConnId)} {a : UserId} {o : Option (List ConnId)} :
    (Function.update f a o user).getD [] = if user = a then o.getD [] else (f user).getD [] := by
  rw [Function.update_apply]
  split <;> rfl

theorem not_accepted_of_none (h : m.bindSession conn session = none) : ¬ Accepted session := by
  intro haccepted
  unfold bindSession at h
  rw [if_neg haccepted] at h
  cases h

theorem boundTo_clearSession {c : ConnId} :
    (m.clearSession conn).BoundTo c user ↔ c ≠ conn ∧ m.BoundTo c user := by
  unfold BoundTo
  rw [clearSession_getSession, Function.update_apply]
  by_cases hc : c = conn
  · simp [hc]
  · simp [hc]

theorem boundTo_bindSession {c : ConnId} (h : m.bindSession conn session = some m') :
    m'.BoundTo c user ↔ c = conn ∧ session.userId = user ∨ c ≠ conn ∧ m.BoundTo c user := by
  unfold BoundTo
  rw [(bindSession_some h).2, Function.update_apply]
  by_cases hc : c = conn
  · simp [hc]
  · simp [hc]

theorem userToConnections_bindSession (h : m.bindSession conn session = some m') :
    m'.userToConnections =
      Function.update (m.detach conn).userToConnections session.userId
        (some (if conn ∈ (m.detach conn).connectionsOf session.userId then
            (m.detach conn).connectionsOf session.userId
          else (m.detach conn).connectionsOf session.userId ++ [conn])) := by
  unfold bindSession at h
  split at h
  · cases h
  · obtain rfl := Option.some.inj h
    rfl

/-- The lists of the users are the sessions of the connections. -/
structure Inverse (calls : List Update) (m : SessionManager) : Prop where
  valid : ∀ conn session, m.getSession conn = some session →
    session.authenticated = true ∧ 0 < session.userId
  latest : ∀ conn session, m.getSession conn = some session →
    0 < lastBind calls conn ∧
      calls[lastBind calls conn - 1]? = some (.bindSession conn session)
  entry : ∀ user, m.userToConnections user ≠ some []
  mem : ∀ user conn, conn ∈ m.connectionsOf user ↔ m.BoundTo conn user
  sorted : ∀ user, (m.connectionsOf user).Pairwise
    fun c d => lastBind calls c < lastBind calls d

/-- Only the list of the connection's user holds it, so taking it off that
list takes it off all. -/
theorem Inverse.connectionsOf_detach (h : Inverse calls m) (conn : ConnId) (user : UserId) :
    (m.detach conn).connectionsOf user = (m.connectionsOf user).filter (· ≠ conn) := by
  have habsent : ¬ m.BoundTo conn user →
      (m.connectionsOf user).filter (· ≠ conn) = m.connectionsOf user := by
    intro hnot
    refine List.filter_eq_self.mpr fun c hc => decide_eq_true fun heq => hnot ?_
    exact (h.mem user conn).mp (heq ▸ hc)
  unfold detach
  cases hsession : m.connectionToSession conn with
  | none =>
    refine (habsent ?_).symm
    rintro ⟨session, hget, -⟩
    exact absurd (hsession.symm.trans hget) (by simp)
  | some old =>
    show (Function.update m.userToConnections old.userId _ user).getD [] = _
    rw [getD_update]
    by_cases huser : user = old.userId
    · rw [if_pos huser, huser]
      split
      next hempty => exact hempty.symm
      next => rfl
    · rw [if_neg huser]
      refine (habsent ?_).symm
      rintro ⟨session, hget, hid⟩
      obtain rfl := Option.some.inj (hsession.symm.trans hget)
      exact huser hid.symm

theorem entry_detach (h : ∀ user, m.userToConnections user ≠ some []) (conn : ConnId)
    (user : UserId) : (m.detach conn).userToConnections user ≠ some [] := by
  unfold detach
  cases m.connectionToSession conn with
  | none => exact h user
  | some old =>
    show Function.update m.userToConnections old.userId _ user ≠ _
    rw [Function.update_apply]
    split
    · split
      · exact nofun
      next hne => exact fun heq => hne (Option.some.inj heq)
    · exact h user

/-- A list stays sorted over a call that does not bind its connections. -/
theorem pairwise_concat {u : Update} {conns : List ConnId}
    (hnot : ∀ c ∈ conns, u.binds c = false)
    (h : conns.Pairwise fun c d => lastBind calls c < lastBind calls d) :
    conns.Pairwise fun c d => lastBind (calls ++ [u]) c < lastBind (calls ++ [u]) d := by
  refine h.imp_of_mem fun hc hd hlt => ?_
  rwa [lastBind_concat_of_not (hnot _ hc), lastBind_concat_of_not (hnot _ hd)]

/-- The call of a session's last bind stays where it is. -/
theorem latest_concat {u : Update} (hnot : u.binds conn = false)
    (h : 0 < lastBind calls conn ∧
      calls[lastBind calls conn - 1]? = some (.bindSession conn session)) :
    0 < lastBind (calls ++ [u]) conn ∧
      (calls ++ [u])[lastBind (calls ++ [u]) conn - 1]? = some (.bindSession conn session) := by
  have hle := lastBind_le calls conn
  rw [lastBind_concat_of_not hnot]
  refine ⟨h.1, ?_⟩
  rw [List.getElem?_append_left (by omega)]
  exact h.2

theorem Inverse.clear (h : Inverse calls m) (conn : ConnId) :
    Inverse (calls ++ [.clearSession conn]) (m.clearSession conn) := by
  have hlist : ∀ user, (m.clearSession conn).connectionsOf user =
      (m.connectionsOf user).filter (· ≠ conn) := h.connectionsOf_detach conn
  have hold : ∀ {c session}, (m.clearSession conn).getSession c = some session →
      m.getSession c = some session := by
    intro c session hget
    rw [clearSession_getSession, Function.update_apply] at hget
    split at hget
    · cases hget
    · exact hget
  refine ⟨fun c s hs => h.valid c s (hold hs),
    fun c s hs => latest_concat rfl (h.latest c s (hold hs)), entry_detach h.entry conn,
    fun user c => ?_, fun user => ?_⟩
  · rw [hlist, List.mem_filter, decide_eq_true_iff, h.mem, boundTo_clearSession, and_comm]
  · rw [hlist]
    exact pairwise_concat (fun _ _ => rfl) ((h.sorted user).filter _)

theorem Inverse.bind (h : Inverse calls m) (hbind : m.bindSession conn session = some m') :
    Inverse (calls ++ [.bindSession conn session]) m' := by
  obtain ⟨⟨hauth, hid, hname⟩, hsessions⟩ := bindSession_some hbind
  have haccepted : Accepted session := by
    simp [Accepted, hauth, hid, hname]
  have hbinds : (Update.bindSession conn session).binds conn = true :=
    decide_eq_true ⟨rfl, haccepted⟩
  have hothers : ∀ {c}, c ≠ conn → (Update.bindSession conn session).binds c = false :=
    fun hne => decide_eq_false fun heq => hne heq.1.symm
  have hlist : ∀ user, m'.connectionsOf user =
      (m.connectionsOf user).filter (· ≠ conn) ++ if user = session.userId then [conn] else [] := by
    intro user
    have habsent : conn ∉ (m.detach conn).connectionsOf session.userId := by
      rw [h.connectionsOf_detach, List.mem_filter]
      exact fun hmem => of_decide_eq_true hmem.2 rfl
    unfold connectionsOf
    rw [userToConnections_bindSession hbind, if_neg habsent, getD_update]
    by_cases huser : user = session.userId
    · rw [if_pos huser, if_pos huser, huser, Option.getD_some, h.connectionsOf_detach]
      rfl
    · rw [if_neg huser, if_neg huser, List.append_nil]
      exact h.connectionsOf_detach conn user
  refine ⟨fun c s hs => ?_, fun c s hs => ?_, ?_, fun user c => ?_, fun user => ?_⟩
  · rw [hsessions, Function.update_apply] at hs
    split at hs
    · obtain rfl := Option.some.inj hs
      exact ⟨hauth, hid⟩
    · exact h.valid c s hs
  · rw [hsessions, Function.update_apply] at hs
    by_cases hc : c = conn
    · subst hc
      rw [if_pos rfl] at hs
      obtain rfl := Option.some.inj hs
      rw [lastBind_concat, if_pos hbinds]
      exact ⟨Nat.succ_pos _, List.getElem?_concat_length⟩
    · rw [if_neg hc] at hs
      exact latest_concat (hothers hc) (h.latest c s hs)
  · intro user hempty
    rw [userToConnections_bindSession hbind, Function.update_apply] at hempty
    split at hempty
    · have hnil := Option.some.inj hempty
      split at hnil
      next hmem => exact List.not_mem_nil (hnil ▸ hmem)
      next => exact List.append_ne_nil_of_right_ne_nil _ (List.cons_ne_nil _ _) hnil
    · exact entry_detach h.entry conn user hempty
  · rw [hlist, List.mem_append, List.mem_filter, decide_eq_true_iff, h.mem,
      boundTo_bindSession hbind, or_comm, and_comm (b := c ≠ conn)]
    refine or_congr ?_ Iff.rfl
    by_cases huser : user = session.userId
    · simp [huser]
    · simp [huser, Ne.symm huser]
  · rw [hlist]
    have hold : ((m.connectionsOf user).filter (· ≠ conn)).Pairwise fun c d =>
        lastBind (calls ++ [.bindSession conn session]) c <
          lastBind (calls ++ [.bindSession conn session]) d := by
      refine pairwise_concat (fun c hc => hothers ?_) ((h.sorted user).filter _)
      exact decide_eq_true_iff.mp (List.mem_filter.mp hc).2
    by_cases huser : user = session.userId
    · rw [if_pos huser]
      refine List.pairwise_append.mpr ⟨hold, List.pairwise_singleton _ _, fun c hc d hd => ?_⟩
      obtain rfl := List.mem_singleton.mp hd
      have hne : c ≠ d := decide_eq_true_iff.mp (List.mem_filter.mp hc).2
      rw [lastBind_concat_of_not (hothers hne), lastBind_concat, if_pos hbinds]
      exact Nat.lt_succ_of_le (lastBind_le calls c)
    · rw [if_neg huser, List.append_nil]
      exact hold

/-- A refused session leaves the manager, and when its connections were bound,
as they were. -/
theorem Inverse.refused (h : Inverse calls m) (hnot : ¬ Accepted session) :
    Inverse (calls ++ [.bindSession conn session]) m := by
  have hbinds : ∀ c, (Update.bindSession conn session).binds c = false :=
    fun c => decide_eq_false fun heq => hnot heq.2
  exact ⟨h.valid, fun c s hs => latest_concat (hbinds c) (h.latest c s hs), h.entry, h.mem,
    fun user => pairwise_concat (fun c _ => hbinds c) (h.sorted user)⟩

/-! ## Every sequence of calls -/

theorem inverse_nil : Inverse [] {} where
  valid := nofun
  latest := nofun
  entry := fun _ => nofun
  mem := by
    intro user conn
    constructor
    · exact nofun
    · rintro ⟨session, hget, -⟩
      cases hget
  sorted := fun _ => List.Pairwise.nil

theorem Inverse.update (h : Inverse calls m) (u : Update) :
    Inverse (calls ++ [u]) (m.update u) := by
  cases u with
  | clearSession conn => exact h.clear conn
  | bindSession conn session =>
    show Inverse _ ((m.bindSession conn session).getD m)
    cases hbind : m.bindSession conn session with
    | none => exact h.refused (not_accepted_of_none hbind)
    | some m' => exact h.bind hbind

theorem inverse_run (calls : List Update) : Inverse calls (run calls) := by
  induction calls using List.reverseRecOn with
  | nil => exact inverse_nil
  | append_singleton calls u ih =>
    unfold run at ih ⊢
    rw [List.foldl_append]
    exact ih.update u

/-- The last connection of a sorted list is the one bound last. -/
theorem Inverse.getConnectionId_iff (h : Inverse calls m) :
    m.getConnectionId user = some conn ↔
      m.BoundTo conn user ∧ ∀ c, m.BoundTo c user → lastBind calls c ≤ lastBind calls conn := by
  have hlast : m.getConnectionId user = (m.connectionsOf user).getLast? := by
    unfold getConnectionId connectionsOf
    cases m.userToConnections user <;> rfl
  have hsorted := h.sorted user
  simp only [← h.mem, hlast]
  generalize m.connectionsOf user = conns at hsorted
  induction conns using List.reverseRecOn with
  | nil => simp
  | append_singleton conns c _ =>
    have hbefore : ∀ d ∈ conns, lastBind calls d < lastBind calls c := fun d hd =>
      (List.pairwise_append.mp hsorted).2.2 d hd c (List.mem_singleton_self c)
    rw [List.getLast?_concat, Option.some.injEq]
    constructor
    · rintro rfl
      refine ⟨List.mem_append_right _ (List.mem_singleton_self c), fun d hd => ?_⟩
      obtain hd | hd := List.mem_append.mp hd
      · exact Nat.le_of_lt (hbefore d hd)
      · exact (List.mem_singleton.mp hd ▸ Nat.le_refl _)
    · rintro ⟨hmem, hmax⟩
      obtain hmem | hmem := List.mem_append.mp hmem
      · have hle := hmax c (List.mem_append_right _ (List.mem_singleton_self c))
        exact absurd (hbefore conn hmem) (Nat.not_lt.mpr hle)
      · exact (List.mem_singleton.mp hmem).symm

theorem Inverse.isSome_iff (h : Inverse calls m) :
    (m.userToConnections user).isSome = true ↔ ∃ conn, m.BoundTo conn user := by
  simp only [← h.mem, connectionsOf]
  cases hconns : m.userToConnections user with
  | none => simp
  | some conns =>
    have hne : conns ≠ [] := fun hnil => h.entry user (hnil ▸ hconns)
    simpa using List.exists_mem_of_ne_nil conns hne

/-- After any calls the two maps say the same: a user has an entry iff a
session is theirs, the entry lists the connections of their sessions once each
in the order they were last bound, every session is the valid one of that last
bind, and `GetConnectionId` is the connection bound last. -/
theorem session_maps_inverse (calls : List Update) :
    (∀ user, ((run calls).userToConnections user).isSome = true ↔
        ∃ conn, (run calls).BoundTo conn user) ∧
      (∀ user conns, (run calls).userToConnections user = some conns →
        conns.Nodup ∧ (∀ conn, conn ∈ conns ↔ (run calls).BoundTo conn user) ∧
          conns.Pairwise fun c d => lastBind calls c < lastBind calls d) ∧
      (∀ conn session, (run calls).getSession conn = some session →
        session.authenticated = true ∧ 0 < session.userId ∧
          calls[lastBind calls conn - 1]? = some (.bindSession conn session)) ∧
      ∀ user conn, (run calls).getConnectionId user = some conn ↔
        (run calls).BoundTo conn user ∧
          ∀ c, (run calls).BoundTo c user → lastBind calls c ≤ lastBind calls conn := by
  have h := inverse_run calls
  refine ⟨fun user => h.isSome_iff, fun user conns hconns => ?_, fun conn session hget => ?_,
    fun user conn => h.getConnectionId_iff⟩
  · have hlist : (run calls).connectionsOf user = conns := by
      unfold connectionsOf
      rw [hconns, Option.getD_some]
    have hsorted := h.sorted user
    rw [hlist] at hsorted
    refine ⟨hsorted.imp fun hlt heq => ?_, fun conn => ?_, hsorted⟩
    · exact absurd hlt (heq ▸ Nat.lt_irrefl _)
    · rw [← hlist]
      exact h.mem user conn
  · obtain ⟨hauth, hid⟩ := h.valid conn session hget
    exact ⟨hauth, hid, (h.latest conn session hget).2⟩

end ChatServer.Service.SessionManager
