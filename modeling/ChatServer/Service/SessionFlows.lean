import ChatServer.Redis.Presence
import ChatServer.Service.UserService

/-!
# Login, resume, logout and close across servers

Each flow is a check in a worker, whose result waits for the I/O thread, and
later the I/O thread's `bindSession` or `logoutSession`. Between the two, other
connections of any server go on. `revoked` remembers the tokens that a logout
or a newer login has removed from Redis.

A `resume_session` that was checked before its token is revoked, and bound
after, brings the token back (`revoked_token_resumed`); without such a race a
revoked token stays dead (`revoked_token_stays_dead`).
-/

namespace ChatServer.Service

open Base HashStore Redis

/-- The servers' configurations: one key prefix, lifetimes per server. -/
structure Cluster where
  keyPrefix : Bytes
  sessionTtlSeconds : Bytes → Nat
  presenceTtlSeconds : Bytes → Nat

def Cluster.config (P : Cluster) (server : Bytes) : RedisConfig :=
  ⟨P.keyPrefix, server, P.sessionTtlSeconds server, P.presenceTtlSeconds server⟩

/-- A worker's result for the I/O thread (`SessionAction`). -/
inductive SessionAction where
  | bind (session : ConnectionSession)
  | unbind
  deriving DecidableEq

/-- The token a waiting bind is about. -/
def SessionAction.bindToken : SessionAction → Option Bytes
  | .bind session => some session.token
  | .unbind => none

structure Flows where
  now : Nat := 0
  hashes : Hashes := fun _ => none
  managers : Bytes → SessionManager := fun _ => {}
  pending : List (Seat × SessionAction) := []
  revoked : List Bytes := []

inductive FlowLabel where
  /-- a login with the right password gets a new token -/
  | login (seat : Seat) (user : UserId) (username token : Bytes)
  | resume (seat : Seat) (token : Bytes)
  | logout (seat : Seat)
  /-- the I/O thread takes up a result; `sent` tells whether Redis took the command -/
  | apply (i : Nat) (issuedAt : Timestamp) (sent : Bool)
  /-- the connection is gone before its result is taken up -/
  | discard (i : Nat)
  | close (seat : Seat) (sent : Bool)
  | refresh (seat : Seat) (sent : Bool)
  | tick (seconds : Nat)

namespace Flows

def setManager (w : Flows) (server : Bytes) (m : SessionManager) : Flows :=
  { w with managers := Function.update w.managers server m }

/-- Send a command from a server. -/
def send (P : Cluster) (w : Flows) (server : Bytes) (sent : Bool) (c : Option Command) : Flows :=
  match c with
  | some c => if sent then { w with hashes := c.run (P.config server) w.now w.hashes } else w
  | none => w

/-- The tokens a command removes from Redis for good: the one `RevokeSession`
names, or the user's current one that `Bind` displaces. -/
def revokes (P : Cluster) (w : Flows) (sent : Bool) (c : Option Command) : List Bytes :=
  match sent, c with
  | true, some (.revokeSession conn session) =>
    if conn = 0 ∨ isValidSession session = false then [] else [session.token]
  | true, some (.bind conn session issuedAt) =>
    if conn = 0 ∨ issuedAt < 0 ∨ isValidSession session = false then []
    else
      ((w.hashes.hget (userSessionKey P.keyPrefix session.userId) .token).filter
        (· ≠ session.token)).toList
  | _, _ => []

/-- What the I/O thread does for a result. -/
def perform (w : Flows) (seat : Seat) (issuedAt : Timestamp) :
    SessionAction → SessionManager × Option Command
  | .bind session => UserService.bindSession (w.managers seat.1) seat.2 session issuedAt
  | .unbind => UserService.logoutSession (w.managers seat.1) seat.2

/-- The tokens a step removes from Redis. -/
def removed (P : Cluster) (w : Flows) : FlowLabel → List Bytes
  | .apply i issuedAt sent =>
    match w.pending[i]? with
    | some (seat, action) => w.revokes P sent (w.perform seat issuedAt action).2
    | none => []
  | _ => []

def step (P : Cluster) (w : Flows) : FlowLabel → Option Flows
  | .login seat user username token =>
    -- 256 random bits are taken never to give a token that was revoked before
    if token ∈ w.revoked then none
    else some { w with pending := w.pending ++ [(seat, .bind ⟨true, user, username, token⟩)] }
  | .resume seat token =>
    let cfg := P.config seat.1
    let w' := { w with hashes := (getToken cfg w.hashes token).2 }
    match UserService.resumeSession cfg w.hashes token with
    | some session => some { w' with pending := w.pending ++ [(seat, .bind session)] }
    | none => some w'
  | .logout seat =>
    match (w.managers seat.1).getSession seat.2 with
    | some _ => some { w with pending := w.pending ++ [(seat, .unbind)] }
    | none => some w
  | .apply i issuedAt sent =>
    match w.pending[i]? with
    | some (seat, action) =>
      let (m, c) := w.perform seat issuedAt action
      let w' := (w.setManager seat.1 m).send P seat.1 sent c
      some { w' with pending := w.pending.eraseIdx i, revoked := w.revokes P sent c ++ w.revoked }
    | none => none
  | .discard i => some { w with pending := w.pending.eraseIdx i }
  | .close seat sent =>
    let (m, c) := UserService.clearSession (w.managers seat.1) seat.2
    some ((w.setManager seat.1 m).send P seat.1 sent c)
  | .refresh seat sent =>
    some (w.send P seat.1 sent (UserService.refreshPresence (w.managers seat.1) seat.2))
  | .tick seconds =>
    some { w with now := w.now + seconds, hashes := w.hashes.purge (w.now + seconds) }

end Flows

/-- All flows of all servers, from an empty Redis. -/
def flows (P : Cluster) : Lts Flows FlowLabel where
  Init w := w = {}
  step := Flows.step P

/-- No token is removed while a bind of it waits for the I/O thread. -/
def NoRace (P : Cluster) (w : Flows) (l : FlowLabel) : Prop :=
  ∀ t ∈ w.removed P l, ∀ x ∈ w.pending, x.2.bindToken ≠ some t

instance (P : Cluster) (w : Flows) (l : FlowLabel) : Decidable (NoRace P w l) := by
  unfold NoRace
  infer_instance

/-- A revoked token is gone and nobody is about to bring it back. -/
structure FlowInv (P : Cluster) (w : Flows) : Prop where
  represented : ∃ r, Represents P.keyPrefix w.hashes r
  gone : ∀ t ∈ w.revoked, w.hashes (tokenKey P.keyPrefix t) = none
  unbound : ∀ t ∈ w.revoked, ∀ x ∈ w.pending, x.2.bindToken ≠ some t

variable {P : Cluster} {w w' : Flows} {r : Registry} {cfg : RedisConfig} {now : Nat}

/-! ## Commands and token keys -/

/-- Only a bind of its own token makes a dead token live. -/
theorem tokens_apply_none {t : Bytes} (h : r.tokens t = none) (c : Command)
    (hbind : ∀ conn session issuedAt, c = .bind conn session issuedAt → session.token ≠ t) :
    (c.apply cfg now r).tokens t = none := by
  refine Option.eq_none_iff_forall_ne_some.mpr fun x hx => ?_
  rcases tokens_of_apply hx with hold | ⟨conn, session, issuedAt, hc, htoken, -⟩
  · rw [h] at hold
    cases hold
  · exact hbind conn session issuedAt hc htoken

theorem tokenKey_none_iff {p : Bytes} {s : Hashes} (h : Represents p s r) (t : Bytes) :
    s (tokenKey p t) = none ↔ r.tokens t = none := by
  rw [show tokenKey p t = Key.text p (.token t) from rfl, h]
  exact Option.map_eq_none_iff

/-- A token that is gone stays gone unless it is bound. -/
theorem run_gone {p : Bytes} {s : Hashes} (h : Represents p s r) (hp : cfg.keyPrefix = p)
    {t : Bytes} (hgone : s (tokenKey p t) = none) (c : Command)
    (hbind : ∀ conn session issuedAt, c = .bind conn session issuedAt → session.token ≠ t) :
    (c.run cfg now s) (tokenKey p t) = none := by
  have hrun : Represents p (c.run cfg now s) (c.apply cfg now r) := represents_run h hp c
  rw [tokenKey_none_iff hrun]
  exact tokens_apply_none ((tokenKey_none_iff h t).mp hgone) c hbind

/-- What a command removes is gone after it. -/
theorem revokes_gone (h : Represents P.keyPrefix w.hashes r) {c : Command} {server : Bytes}
    {t : Bytes} (ht : t ∈ w.revokes P true (some c)) :
    (c.run (P.config server) w.now w.hashes) (tokenKey P.keyPrefix t) = none := by
  have hrun : Represents P.keyPrefix (c.run (P.config server) w.now w.hashes)
      (c.apply (P.config server) w.now r) := represents_run h rfl c
  rw [tokenKey_none_iff hrun]
  cases c with
  | bind conn session issuedAt =>
    simp only [Flows.revokes] at ht
    split at ht
    · cases ht
    · rename_i hguard
      rw [h.hget_current] at ht
      obtain ⟨hold, hne⟩ := Option.filter_eq_some_iff.mp (Option.mem_toList.mp ht)
      obtain ⟨⟨old, d⟩, hcur, rfl⟩ := Option.map_eq_some_iff.mp hold
      have hne' : old ≠ session.token := by simpa using hne
      unfold Command.apply
      dsimp only
      rw [if_neg hguard, tokens_bind_ne _ _ _ _ _ hne']
      unfold Registry.displaceToken
      rw [hcur]
      simp [hne']
  | revokeSession conn session =>
    simp only [Flows.revokes] at ht
    split at ht
    · cases ht
    · rename_i hguard
      obtain rfl := List.mem_singleton.mp ht
      unfold Command.apply
      dsimp only
      rw [if_neg hguard]
      unfold Registry.revoke
      dsimp only
      rw [(clear_tokens _ _ _ _).1]
      split <;> exact Function.update_self ..
  | refresh _ _ | clearPresence _ _ | revokeToken _ => cases ht

/-! ## The invariant -/

theorem FlowInv.send (h : FlowInv P w) (server : Bytes) (m : SessionManager) (sent : Bool)
    (c : Option Command)
    (hbind : ∀ conn session issuedAt, c = some (.bind conn session issuedAt) →
      session.token ∉ w.revoked) :
    FlowInv P ((w.setManager server m).send P server sent c) ∧
      ∀ t ∈ w.revokes P sent c,
        ((w.setManager server m).send P server sent c).hashes (tokenKey P.keyPrefix t) = none := by
  obtain ⟨r, hr⟩ := h.represented
  cases c with
  | none =>
    refine ⟨⟨h.represented, h.gone, h.unbound⟩, fun t ht => ?_⟩
    cases sent <;> cases ht
  | some c =>
    cases sent with
    | false =>
      refine ⟨⟨h.represented, h.gone, h.unbound⟩, fun t ht => ?_⟩
      cases ht
    | true =>
      refine ⟨⟨⟨_, represents_run hr rfl c⟩, fun t ht => ?_, h.unbound⟩, fun t ht => ?_⟩
      · refine run_gone hr rfl (h.gone t ht) c fun conn session issuedAt hc heq => ?_
        subst heq
        exact hbind conn session issuedAt (by rw [hc]) ht
      · exact revokes_gone hr ht

theorem getToken_of_gone {s : Hashes} {t : Bytes} (h : s (tokenKey cfg.keyPrefix t) = none) :
    (getToken cfg s t).1 = none := by
  have hread : readToken cfg s t = none := by simp [readToken, HashStore.hget, h]
  unfold getToken
  split
  · rfl
  · rw [hread]

/-- Reading a token changes nothing but a hash that does not parse. -/
theorem getToken_store (cfg : RedisConfig) (s : Hashes) (t : Bytes) :
    (getToken cfg s t).2 = s ∨ (getToken cfg s t).2 = s.del (tokenKey cfg.keyPrefix t) := by
  unfold getToken
  split
  · exact .inl rfl
  · split
    · exact .inl rfl
    · exact .inr rfl
    · exact .inl rfl

theorem FlowInv.read (h : FlowInv P w) (server token : Bytes) :
    FlowInv P { w with hashes := (getToken (P.config server) w.hashes token).2 } := by
  obtain ⟨r, hr⟩ := h.represented
  rcases getToken_store (P.config server) w.hashes token with heq | heq
  · rw [heq]
    exact h
  · rw [heq]
    refine ⟨⟨_, hr.setToken token none⟩, fun t ht => ?_, h.unbound⟩
    show Function.update w.hashes _ none _ = none
    rw [Function.update_apply]
    split
    · rfl
    · exact h.gone t ht

/-- A new result waits; a bind among them is of no revoked token. -/
theorem FlowInv.wait (h : FlowInv P w) (seat : Seat) (action : SessionAction)
    (hbind : ∀ t, action.bindToken = some t → t ∉ w.revoked) :
    FlowInv P { w with pending := w.pending ++ [(seat, action)] } := by
  refine ⟨h.represented, h.gone, fun t ht x hmem => ?_⟩
  rcases List.mem_append.mp hmem with hmem | hmem
  · exact h.unbound t ht x hmem
  · rw [List.mem_singleton.mp hmem]
    exact fun hx => hbind t hx ht

theorem perform_bind (h : FlowInv P w) {seat : Seat} {action : SessionAction}
    (hmem : (seat, action) ∈ w.pending) (issuedAt : Timestamp) (conn : ConnId)
    (session : ConnectionSession) (at' : Timestamp)
    (hc : (w.perform seat issuedAt action).2 = some (.bind conn session at')) :
    session.token ∉ w.revoked := by
  cases action with
  | bind bound =>
    simp only [Flows.perform, UserService.bindSession] at hc
    split at hc
    · cases hc
    · simp only [Option.some.injEq, Command.bind.injEq] at hc
      obtain ⟨-, rfl, -⟩ := hc
      intro ht
      exact h.unbound _ ht _ hmem rfl
  | unbind =>
    simp only [Flows.perform, UserService.logoutSession] at hc
    split at hc
    · cases hc
    · simp at hc

/-- Every step without a race keeps revoked tokens dead. -/
theorem FlowInv.step (h : FlowInv P w) {l : FlowLabel} (hrace : NoRace P w l)
    (hstep : w.step P l = some w') : FlowInv P w' := by
  cases l with
  | login seat user username token =>
    simp only [Flows.step] at hstep
    split at hstep
    · cases hstep
    · rename_i hfresh
      obtain rfl := Option.some.inj hstep
      refine h.wait seat _ fun t ht => ?_
      obtain rfl := Option.some.inj ht
      exact hfresh
  | resume seat token =>
    have hread := h.read seat.1 token
    simp only [Flows.step] at hstep
    split at hstep
    · rename_i session hresume
      obtain rfl := Option.some.inj hstep
      refine hread.wait seat _ fun t ht hrev => ?_
      obtain ⟨stored, hget, hses⟩ := Option.map_eq_some_iff.mp hresume
      subst hses
      obtain rfl := Option.some.inj ht
      rw [getToken_of_gone (h.gone token hrev)] at hget
      cases hget
    · obtain rfl := Option.some.inj hstep
      exact hread
  | logout seat =>
    simp only [Flows.step] at hstep
    split at hstep
    · obtain rfl := Option.some.inj hstep
      exact h.wait seat _ fun t ht => by cases ht
    · obtain rfl := Option.some.inj hstep
      exact h
  | apply i issuedAt sent =>
    simp only [Flows.step] at hstep
    split at hstep
    · rename_i seat action hi
      obtain rfl := Option.some.inj hstep
      have hmem := List.mem_of_getElem? hi
      have hremoved : w.removed P (.apply i issuedAt sent) =
          w.revokes P sent (w.perform seat issuedAt action).2 := by
        simp only [Flows.removed, hi]
      obtain ⟨hinv, hgone⟩ := h.send seat.1 (w.perform seat issuedAt action).1 sent
        (w.perform seat issuedAt action).2 (perform_bind h hmem issuedAt)
      have hkeep : ((w.setManager seat.1 (w.perform seat issuedAt action).1).send P seat.1 sent
          (w.perform seat issuedAt action).2).revoked = w.revoked := by
        unfold Flows.send
        split
        · split <;> rfl
        · rfl
      refine ⟨hinv.represented, fun t ht => ?_, fun t ht x hp => ?_⟩
      · rcases List.mem_append.mp ht with ht | ht
        · exact hgone t ht
        · exact hinv.gone t (hkeep ▸ ht)
      · have hp' := List.mem_of_mem_eraseIdx hp
        rcases List.mem_append.mp ht with ht | ht
        · exact hrace t (hremoved ▸ ht) x hp'
        · exact h.unbound t ht x hp'
    · cases hstep
  | discard i =>
    obtain rfl := Option.some.inj hstep
    exact ⟨h.represented, h.gone, fun t ht x hp =>
      h.unbound t ht x (List.mem_of_mem_eraseIdx hp)⟩
  | close seat sent =>
    obtain rfl := Option.some.inj hstep
    refine (h.send seat.1 (UserService.clearSession (w.managers seat.1) seat.2).1 sent
      (UserService.clearSession (w.managers seat.1) seat.2).2
      fun conn session issuedAt hc => ?_).1
    simp only [UserService.clearSession] at hc
    split at hc <;> simp at hc
  | refresh seat sent =>
    obtain rfl := Option.some.inj hstep
    have hkeep := h.send seat.1 (w.managers seat.1) sent
      (UserService.refreshPresence (w.managers seat.1) seat.2) fun conn session issuedAt hc => by
        obtain ⟨_, _, hs⟩ := Option.map_eq_some_iff.mp hc
        cases hs
    rw [Flows.setManager, Function.update_eq_self] at hkeep
    exact hkeep.1
  | tick seconds =>
    obtain rfl := Option.some.inj hstep
    obtain ⟨r, hr⟩ := h.represented
    refine ⟨⟨_, represents_purge hr _⟩, fun t ht => ?_, h.unbound⟩
    show (w.hashes _).filter _ = none
    rw [h.gone t ht]
    rfl

theorem flowInv_inductive : (flows P).Inductive (NoRace P) (FlowInv P) where
  init w hw := by
    subst hw
    refine ⟨⟨_, represents_empty⟩, ?_, ?_⟩
    · intro t ht
      cases ht
    · intro t ht
      cases ht
  step _ _ _ h hrace hstep := h.step hrace hstep

/-- In every run in which no token is removed while a bind of it waits for the
I/O thread, a token that a logout or a newer login has removed never gives a
session again, on any server. -/
theorem revoked_token_stays_dead (h : (flows P).Reach (NoRace P) w) :
    ∀ t ∈ w.revoked, ∀ server, (getToken (P.config server) w.hashes t).1 = none := by
  have hinv := flowInv_inductive.invariant h
  intro t ht server
  exact getToken_of_gone (hinv.gone t ht)

/-- One server, with the default lifetimes. -/
def oneServer : Cluster := ⟨str "chat", fun _ => 604800, fun _ => 120⟩

def bobToken : Bytes := List.replicate 64 97

/-- Bob logs in on connection 1 and the login is bound. -/
def bobLogin : List FlowLabel :=
  [.login (str "server-1", 1) 7 (str "bob") bobToken, .apply 0 100 true]

/-- Connection 2 has its `resume_session` checked, connection 1 logs out, and
then the I/O thread takes up the resume. -/
def lateResume : List FlowLabel :=
  bobLogin ++ [.resume (str "server-1", 2) bobToken, .logout (str "server-1", 1),
    .apply 1 101 true, .apply 0 102 true]

/-- The token of a logged-out session is live again. -/
theorem revoked_token_resumed :
    ∃ w, (flows oneServer).Reachable w ∧ bobToken ∈ w.revoked ∧
      (getToken (oneServer.config (str "server-1")) w.hashes bobToken).1 =
        some ⟨7, str "bob", 102⟩ := by
  obtain ⟨w, hw, h⟩ := Lts.exists_reach_of_run (M := flows oneServer) (s := {})
    (fun w => decide (bobToken ∈ w.revoked ∧
      (getToken (oneServer.config (str "server-1")) w.hashes bobToken).1 =
        some ⟨7, str "bob", 102⟩))
    lateResume rfl Lts.runOk_true (by decide +kernel)
  exact ⟨w, hw, of_decide_eq_true h⟩

/-- The theorem at a logout with no resume waiting. -/
theorem revoked_token_stays_dead_logout :
    ∃ w, (flows oneServer).Reach (NoRace oneServer) w ∧ bobToken ∈ w.revoked ∧
      (getToken (oneServer.config (str "server-1")) w.hashes bobToken).1 = none := by
  have hok : (flows oneServer).RunOk (NoRace oneServer) {}
      (bobLogin ++ [.logout (str "server-1", 1), .apply 0 101 true]) := by decide +kernel
  obtain ⟨w, hw, h⟩ := Lts.exists_reach_of_run (M := flows oneServer) (s := {})
    (fun w => decide (bobToken ∈ w.revoked))
    (bobLogin ++ [.logout (str "server-1", 1), .apply 0 101 true]) rfl hok (by decide +kernel)
  have hrev := of_decide_eq_true h
  exact ⟨w, hw, hrev, revoked_token_stays_dead hw bobToken hrev _⟩

end ChatServer.Service
