import ChatServer.Base.Threads
import ChatServer.Db.FriendRepository
import ChatServer.Service.FriendService

/-!
# The states of a friendship

Calls of `addFriend`, `acceptFriend` and `deleteFriend` on any number of
connections, interleaved statement by statement. Each call looks at the table and
then writes to it in another statement, so what it saw may be out of date; what
holds of the table in every reachable state rests on the constraints of the schema
and on the `WHERE` clauses.

* `FriendSeen.Sends` — which statements a call may send, given its request and
  the user its connection is authenticated as;
* `friend_steps` — what one statement may do to the rows;
* `friendship_states` — the rows and the lists in every reachable state, and
  who may change them;
* `block_kept`, `block_lifted` — a blocked pair stays blocked unless one of the
  two deletes the row, which `deleteFriend` lets them do.
-/

namespace ChatServer.Service

open Base Db

/-! ## Calls -/

inductive FriendRequest where
  | add (conn : ConnId) (targetUserId : UserId)
  | accept (conn : ConnId) (requesterUserId : UserId)
  | delete (conn : ConnId) (friendUserId : UserId)
  deriving DecidableEq, Repr

namespace FriendRequest

def conn : FriendRequest → ConnId
  | .add conn _ => conn
  | .accept conn _ => conn
  | .delete conn _ => conn

/-- The function of `FriendService` that serves the request. -/
def action : FriendRequest → Action FriendshipActionResult
  | .add conn targetUserId => FriendService.addFriend conn targetUserId
  | .accept conn requesterUserId => FriendService.acceptFriend conn requesterUserId
  | .delete conn friendUserId => FriendService.deleteFriend conn friendUserId

end FriendRequest

/-- A call, and the session of its connection once `GetSession` has answered. -/
structure FriendSeen where
  request : FriendRequest
  session : Option ConnectionSession := none
  deriving DecidableEq, Repr

namespace FriendSeen

/-- The user the connection is authenticated as. -/
def user (s : FriendSeen) : Option UserId :=
  (s.session.filter (·.authenticated)).map (·.userId)

/-- What the service learns about its session from an answer. -/
def note (s : FriendSeen) (e : Event Call) : FriendSeen :=
  match e with
  | ⟨.getSession conn, r⟩ => if conn = s.request.conn then { s with session := r } else s
  | _ => s

end FriendSeen

/-- The calls of the service that do not go to `FriendRepository`, and the
statements of those that do. -/
abbrev FriendOp := OpSum Call FriendSql

/-- The service on top of the repository. -/
def onFriendRepository : ∀ γ, Call γ → Prog FriendOp JsonException γ
  | _, .findFriendship userA userB =>
    (FriendRepository.findFriendship userA userB).handle fun _ op => Prog.perform (.inr op)
  | _, .createFriendRequest requesterId addresseeId =>
    (FriendRepository.createFriendRequest requesterId addresseeId).handle fun _ op =>
      Prog.perform (.inr op)
  | _, .acceptFriendRequest requesterId addresseeId =>
    (FriendRepository.acceptFriendRequest requesterId addresseeId).handle fun _ op =>
      Prog.perform (.inr op)
  | _, .deleteFriendship userA userB =>
    (FriendRepository.deleteFriendship userA userB).handle fun _ op => Prog.perform (.inr op)
  | _, op => Prog.perform (.inl op)

/-- What the environment decides about a call: the answers of the session manager
and of the user repository, and what becomes of a statement. -/
structure FriendEnv where
  session : Option ConnectionSession := none
  user : FindUserResult := { status := .notFound }
  sql : FriendChoice := {}

/-- Carry out a call. -/
def FriendEnv.exec (fmt : TimeFormat) (env : FriendEnv) (t : FriendStore) :
    ∀ {γ : Type}, FriendOp γ → Option (γ × FriendStore)
  | _, .inl (.getSession _) => some (env.session, t)
  | _, .inl (.findById _) => some (env.user, t)
  -- the functions modelled here call nothing else
  | _, .inl _ => none
  | _, .inr sql => some (t.exec fmt env.sql sql)

def FriendSeen.see (s : FriendSeen) : Event FriendOp → FriendSeen
  | ⟨.inl op, r⟩ => s.note ⟨op, r⟩
  | ⟨.inr _, _⟩ => s

/-- Calls of any number of connections on the tables. -/
def friendCalls (fmt : TimeFormat) (Init : FriendStore → Prop) :
    Threads FriendOp JsonException FriendshipActionResult FriendStore FriendSeen FriendRequest
      FriendEnv where
  Init := Init
  program request := request.action.handle onFriendRepository
  start request := { request }
  see := FriendSeen.see
  exec env _ t _ op := env.exec fmt t op

/-! ## What a call may send -/

namespace FriendSeen

/-- The calls the service makes. -/
def Makes (s : FriendSeen) : ∀ {γ : Type}, Call γ → Prop
  | _, .getSession conn => conn = s.request.conn
  | _, .findById _ => True
  | _, .findFriendship _ _ => True
  | _, .createFriendRequest requesterId addresseeId =>
    s.user = some requesterId ∧ s.request = .add s.request.conn addresseeId
  | _, .acceptFriendRequest requesterId addresseeId =>
    s.user = some addresseeId ∧ s.request = .accept s.request.conn requesterId
  | _, .deleteFriendship userA userB =>
    s.user = some userA ∧ s.request = .delete s.request.conn userB
  | _, _ => False

/-- The statements that come of them. -/
def Sends (s : FriendSeen) : ∀ {γ : Type}, FriendOp γ → Prop
  | _, .inr (.insert requesterId addresseeId pair) =>
    s.user = some requesterId ∧ s.request = .add s.request.conn addresseeId ∧
      pair = orderedPair requesterId addresseeId
  | _, .inr (.accept requesterId addresseeId) =>
    s.user = some addresseeId ∧ s.request = .accept s.request.conn requesterId
  | _, .inr (.deletePair pair) =>
    ∃ userA userB, s.user = some userA ∧ s.request = .delete s.request.conn userB ∧
      pair = orderedPair userA userB
  | _, _ => True

end FriendSeen

namespace FriendService

theorem session_obeys {s : FriendSeen} :
    (getAuthenticatedSession s.request.conn).Obeys FriendSeen.note FriendSeen.Makes
      (fun r s' => s'.request = s.request ∧ s'.user = r.map (·.userId)) s := by
  refine .call rfl fun r => .pure ?_
  have hnote : s.note ⟨.getSession s.request.conn, r⟩ = { s with session := r } := if_pos rfl
  rw [hnote]
  exact ⟨rfl, rfl⟩

theorem validateUserExists_obeys {s : FriendSeen} (userId : UserId) (missing failed : String) :
    (validateUserExists userId missing failed).Obeys FriendSeen.note FriendSeen.Makes
      (fun _ s' => s' = s) s := by
  refine .call trivial fun user => ?_
  exact .exit rfl fun _ => .exit rfl fun _ => .pure rfl

theorem addFriend_obeys (conn : ConnId) (targetUserId : UserId) :
    (addFriend conn targetUserId).Obeys FriendSeen.note FriendSeen.Makes (fun _ _ => True)
      { request := .add conn targetUserId } := by
  refine .exit trivial fun _ => ?_
  refine .bind session_obeys fun session s hs => ?_
  obtain ⟨hrequest, huser⟩ := hs
  cases session with
  | none => exact .pure trivial
  | some session =>
    refine .exit trivial fun _ => ?_
    refine .bind (validateUserExists_obeys _ _ _) fun error s' hs' => ?_
    rw [hs']
    cases error with
    | some error => exact .pure trivial
    | none =>
      refine .call trivial fun existing => ?_
      split
      · exact .pure trivial
      refine .exit trivial fun _ => ?_
      -- the row is inserted for the user of the session
      have hmakes : s.user = some session.userId ∧
          s.request = .add s.request.conn targetUserId := ⟨huser, by rw [hrequest]; rfl⟩
      refine .call hmakes fun created => ?_
      refine .exit trivial fun _ => ?_
      split
      · exact .pure trivial
      · exact .pure trivial

theorem acceptFriend_obeys (conn : ConnId) (requesterUserId : UserId) :
    (acceptFriend conn requesterUserId).Obeys FriendSeen.note FriendSeen.Makes (fun _ _ => True)
      { request := .accept conn requesterUserId } := by
  refine .exit trivial fun _ => ?_
  refine .bind session_obeys fun session s hs => ?_
  obtain ⟨hrequest, huser⟩ := hs
  cases session with
  | none => exact .pure trivial
  | some session =>
    refine .exit trivial fun _ => ?_
    refine .bind (validateUserExists_obeys _ _ _) fun error s' hs' => ?_
    rw [hs']
    cases error with
    | some error => exact .pure trivial
    | none =>
      refine .call trivial fun existing => ?_
      refine .exit trivial fun _ => .exit trivial fun _ => ?_
      split
      next friendship =>
        refine .exit trivial fun _ => .exit trivial fun _ => ?_
        refine .exit trivial fun _ => ?_
        -- the user of the session is the addressee
        have hmakes : s.user = some session.userId ∧
            s.request = .accept s.request.conn requesterUserId :=
          ⟨huser, by rw [hrequest]; rfl⟩
        refine .call hmakes fun accepted => ?_
        refine .exit trivial fun _ => .exit trivial fun _ => ?_
        split
        · exact .pure trivial
        · exact .pure trivial
      next => exact .pure trivial

theorem deleteFriend_obeys (conn : ConnId) (friendUserId : UserId) :
    (deleteFriend conn friendUserId).Obeys FriendSeen.note FriendSeen.Makes (fun _ _ => True)
      { request := .delete conn friendUserId } := by
  refine .exit trivial fun _ => ?_
  refine .bind session_obeys fun session s hs => ?_
  obtain ⟨hrequest, huser⟩ := hs
  cases session with
  | none => exact .pure trivial
  | some session =>
    refine .exit trivial fun _ => ?_
    have hmakes : s.user = some session.userId ∧
        s.request = .delete s.request.conn friendUserId := ⟨huser, by rw [hrequest]; rfl⟩
    refine .call hmakes fun deleted => ?_
    exact .exit trivial fun _ => .exit trivial fun _ =>
      .exit trivial fun _ => .pure trivial

theorem action_obeys (request : FriendRequest) :
    request.action.Obeys FriendSeen.note FriendSeen.Makes (fun _ _ => True) { request } := by
  cases request with
  | add conn targetUserId => exact addFriend_obeys conn targetUserId
  | accept conn requesterUserId => exact acceptFriend_obeys conn requesterUserId
  | delete conn friendUserId => exact deleteFriend_obeys conn friendUserId

end FriendService

/-- What a function of the repository sends; its statements tell the service nothing
about its session. -/
abbrev RepositoryObeys {α : Type} (s : FriendSeen) (p : Prog FriendSql JsonException α) : Prop :=
  p.Obeys (fun s _ => s) (fun s _ op => s.Sends (.inr op)) (fun _ s' => s' = s) s

namespace FriendRepository

variable {s : FriendSeen}

theorem statementFault_obeys (errno : Nat) (fallback : RepositoryStatus) :
    RepositoryObeys s (statementFault .markBad errno fallback) :=
  .ite (fun _ => .call trivial fun _ => .pure rfl) fun _ => .pure rfl

theorem readFriendship_obeys {select : FriendSql (Except Nat (Option FriendshipRecord))}
    (h : s.Sends (.inr select)) : RepositoryObeys s (FriendRepository.readFriendship select) := by
  refine .call h fun answer => ?_
  split
  · exact .pure rfl
  · exact .pure rfl
  · exact .bind (statementFault_obeys _ _) fun _ _ hs => .pure hs

theorem findFriendship_obeys (userA userB : UserId) :
    RepositoryObeys s (FriendRepository.findFriendship userA userB) := by
  refine .call trivial fun answer => ?_
  split
  · exact .pure rfl
  · exact readFriendship_obeys trivial

theorem createFriendRequest_obeys {requesterId addresseeId : UserId}
    (h : s.Makes (.createFriendRequest requesterId addresseeId)) :
    RepositoryObeys s (FriendRepository.createFriendRequest requesterId addresseeId) := by
  refine .call trivial fun answer => ?_
  split
  · exact .pure rfl
  · refine .call ⟨h.1, h.2, rfl⟩ fun answer => ?_
    split
    · exact .bind (statementFault_obeys _ _) fun _ _ hs => .pure hs
    · exact readFriendship_obeys trivial

theorem acceptFriendRequest_obeys {requesterId addresseeId : UserId}
    (h : s.Makes (.acceptFriendRequest requesterId addresseeId)) :
    RepositoryObeys s (FriendRepository.acceptFriendRequest requesterId addresseeId) := by
  refine .call trivial fun answer => ?_
  split
  · exact .pure rfl
  · refine .call h fun answer => ?_
    split
    · exact .bind (statementFault_obeys _ _) fun _ _ hs => .pure hs
    · exact .exit rfl fun _ => readFriendship_obeys trivial

theorem deleteFriendship_obeys {userA userB : UserId}
    (h : s.Makes (.deleteFriendship userA userB)) :
    RepositoryObeys s (FriendRepository.deleteFriendship userA userB) := by
  refine .call trivial fun answer => ?_
  split
  · exact .pure rfl
  · refine .call ⟨userA, userB, h.1, h.2, rfl⟩ fun answer => ?_
    split
    · exact .bind (statementFault_obeys _ _) fun _ _ hs => .pure hs
    · exact .pure rfl

/-- The statements of a function of the repository, in the service. -/
theorem lift_obeys {α : Type} {p : Prog FriendSql JsonException α} (h : RepositoryObeys s p) :
    (p.handle fun _ op => Prog.perform (.inr op) : Prog FriendOp JsonException α).Obeys
      FriendSeen.see FriendSeen.Sends (fun _ s' => s' = s) s := by
  refine Prog.Obeys.handle (fun s γ op hop => ?_) h
  exact .perform hop fun _ => rfl

end FriendRepository

open FriendRepository in
theorem onFriendRepository_obeys {s : FriendSeen} {γ : Type} {op : Call γ} (h : s.Makes op) :
    (onFriendRepository γ op).Obeys FriendSeen.see FriendSeen.Sends
      (fun r s' => s' = s.note ⟨op, r⟩) s := by
  cases op with
  | findFriendship userA userB => exact lift_obeys (findFriendship_obeys userA userB)
  | createFriendRequest requesterId addresseeId => exact lift_obeys (createFriendRequest_obeys h)
  | acceptFriendRequest requesterId addresseeId => exact lift_obeys (acceptFriendRequest_obeys h)
  | deleteFriendship userA userB => exact lift_obeys (deleteFriendship_obeys h)
  | getSession conn => exact .perform trivial fun _ => rfl
  | findById userId => exact .perform trivial fun _ => rfl
  | _ => exact h.elim

/-- Every statement of a call is one its user may send. -/
theorem program_obeys (request : FriendRequest) :
    (request.action.handle onFriendRepository).Obeys FriendSeen.see FriendSeen.Sends
      (fun _ _ => True) { request } :=
  .handle (fun _ _ _ hop => onFriendRepository_obeys hop) (FriendService.action_obeys request)

/-! ## The rows -/

/-- Every key holds the two users of its row. -/
def OrderedKeys (t : FriendStore) : Prop := ∀ f ∈ t.rows, f.Ordered

/-- The `DELETE` of the pair's row. A call sends it only for a `deleteFriend` of one of
the two users that names the other (`FriendSeen.Sends`). -/
def deletesPair (pair : UserId × UserId) : ∀ {γ : Type}, FriendOp γ → Bool
  | _, .inr (.deletePair p) => p = pair
  | _, _ => false

/-- What a statement of a call may do to the rows. -/
structure FriendStep (seen : FriendSeen) {γ : Type} (op : FriendOp γ) (t t' : FriendStore) :
    Prop where
  ordered : OrderedKeys t'
  /-- a row that is new or has changed -/
  written : ∀ f ∈ t'.rows, f ∉ t.rows →
    (seen.user = some f.requesterId ∧ seen.request = .add seen.request.conn f.addresseeId ∧
        f.status = .pending) ∨
      (seen.user = some f.addresseeId ∧ seen.request = .accept seen.request.conn f.requesterId ∧
        f.status = .accepted ∧
        ∃ g ∈ t.rows, g.status = .pending ∧
          f = { g with status := .accepted, updatedAt := f.updatedAt })
  /-- a row that has changed or is gone -/
  removed : ∀ f ∈ t.rows, f ∉ t'.rows →
    (seen.user = some f.addresseeId ∧ seen.request = .accept seen.request.conn f.requesterId ∧
        f.status = .pending) ∨
      deletesPair (orderedPair f.requesterId f.addresseeId) op = true ∧
        ∃ userA userB, seen.user = some userA ∧ seen.request = .delete seen.request.conn userB ∧
          orderedPair f.requesterId f.addresseeId = orderedPair userA userB

section

variable {seen : FriendSeen} {t t' : FriendStore} {γ : Type} {op : FriendOp γ}

theorem FriendStep.of_eq (ht : OrderedKeys t) (h : t' = t) : FriendStep seen op t t' := by
  subst h
  exact ⟨ht, fun _ hf hnot => absurd hf hnot, fun _ hf hnot => absurd hf hnot⟩

theorem insert_step {requesterId addresseeId : UserId} {id : Int} {now : Timestamp}
    (ht : OrderedKeys t) (huser : seen.user = some requesterId)
    (hrequest : seen.request = .add seen.request.conn addresseeId)
    (h : t.insert (requestedEntry requesterId addresseeId (orderedPair requesterId addresseeId)
      id now) = .ok t') : FriendStep seen op t t' := by
  have hrows := FriendStore.rows_of_insert h
  refine ⟨fun f hf => ?_, fun f hf hnew => ?_, fun f hf hgone => ?_⟩
  · rw [hrows] at hf
    rcases List.mem_cons.mp hf with rfl | hf
    · exact rfl
    · exact ht f hf
  · rw [hrows] at hf
    rcases List.mem_cons.mp hf with rfl | hf
    · exact .inl ⟨huser, hrequest, rfl⟩
    · exact absurd hf hnew
  · rw [hrows] at hgone
    exact absurd (List.mem_cons_of_mem _ hf) hgone

theorem accept_step {requesterId addresseeId : UserId} {now : Timestamp} (ht : OrderedKeys t)
    (huser : seen.user = some addresseeId)
    (hrequest : seen.request = .accept seen.request.conn requesterId) :
    FriendStep seen op t (t.setStatus (·.awaits requesterId addresseeId) .accepted now) := by
  refine ⟨fun f hf => ?_, fun f hf hnew => ?_, fun f hf hgone => ?_⟩
  · obtain ⟨g, hg, rfl⟩ := FriendStore.mem_setStatus.mp hf
    have hordered := ht g hg
    unfold FriendshipEntry.Ordered at hordered ⊢
    rw [FriendshipEntry.update_pair, FriendshipEntry.update_requesterId,
      FriendshipEntry.update_addresseeId]
    exact hordered
  · obtain ⟨g, hg, hupdate⟩ := FriendStore.mem_setStatus.mp hf
    unfold FriendshipEntry.update at hupdate
    split at hupdate
    next hit =>
      -- the row that was waiting for the addressee
      obtain ⟨hreq, haddr, hpending⟩ := of_decide_eq_true hit
      subst hupdate
      refine .inr ⟨?_, ?_, rfl, g, hg, hpending, rfl⟩
      · rw [haddr, huser]
      · rw [hreq, ← hrequest]
    next =>
      subst hupdate
      exact absurd hg hnew
  · by_cases hit : f.awaits requesterId addresseeId = true
    · obtain ⟨hreq, haddr, hpending⟩ := of_decide_eq_true hit
      refine .inl ⟨?_, ?_, hpending⟩
      · rw [haddr, huser]
      · rw [hreq, ← hrequest]
    · exact absurd (FriendStore.mem_setStatus.mpr ⟨f, hf, if_neg hit⟩) hgone

theorem delete_step {userA userB : UserId} (ht : OrderedKeys t) (huser : seen.user = some userA)
    (hrequest : seen.request = .delete seen.request.conn userB) :
    FriendStep seen (.inr (.deletePair (orderedPair userA userB))) t
      (t.keep (·.pair ≠ orderedPair userA userB)) := by
  refine ⟨fun f hf => ht f (FriendStore.mem_keep.mp hf).1, fun f hf hnew => ?_,
    fun f hf hgone => ?_⟩
  · exact absurd (FriendStore.mem_keep.mp hf).1 hnew
  · by_cases hpair : f.pair = orderedPair userA userB
    · have hpair := (ht f hf).symm.trans hpair
      exact .inr ⟨decide_eq_true hpair.symm, userA, userB, huser, hrequest, hpair⟩
    · exact absurd (FriendStore.mem_keep.mpr ⟨hf, decide_eq_true hpair⟩) hgone

/-- A statement a call may send does to the rows what the call may do. -/
theorem friend_steps {op : FriendSql γ} (ht : OrderedKeys t) (hsends : seen.Sends (.inr op))
    (hchanges : t.Changes t' op) : FriendStep seen (.inr op) t t' := by
  cases op with
  | insert requesterId addresseeId pair =>
    obtain ⟨huser, hrequest, rfl⟩ := hsends
    rcases hchanges with hsame | ⟨id, now, h⟩
    · exact .of_eq ht hsame
    · exact insert_step ht huser hrequest h
  | accept requesterId addresseeId =>
    rcases hchanges with hsame | ⟨now, rfl⟩
    · exact .of_eq ht hsame
    · exact accept_step ht hsends.1 hsends.2
  | deletePair pair =>
    obtain ⟨userA, userB, huser, hrequest, rfl⟩ := hsends
    rcases hchanges with hsame | rfl
    · exact .of_eq ht hsame
    · exact delete_step ht huser hrequest
  | borrow | selectPair pair | selectId id | markBad => exact .of_eq ht hchanges

theorem exec_step {fmt : TimeFormat} {env : FriendEnv} {answer : γ} (ht : OrderedKeys t)
    (hsends : seen.Sends op) (hexec : env.exec fmt t op = some (answer, t')) :
    FriendStep seen op t t' := by
  cases op with
  | inr sql =>
    have hstore : (t.exec fmt env.sql sql).2 = t' :=
      congrArg Prod.snd (Option.some.inj hexec)
    exact friend_steps ht hsends (hstore ▸ t.exec_changes fmt env.sql sql)
  | inl op =>
    cases op with
    | getSession conn | findById userId =>
      exact .of_eq ht (Prod.mk.inj (Option.some.inj hexec)).2.symm
    | _ => cases hexec

end

/-! ## Every reachable state -/

section

variable (fmt : TimeFormat) {Init : FriendStore → Prop}
  {s s' : Shared FriendOp JsonException FriendshipActionResult FriendStore FriendSeen}
  {l : ThreadLabel FriendRequest FriendEnv}
  {ok : Shared FriendOp JsonException FriendshipActionResult FriendStore FriendSeen →
    ThreadLabel FriendRequest FriendEnv → Prop}

theorem friendCalls_upholds (hinit : ∀ t, Init t → OrderedKeys t) :
    (friendCalls fmt Init).Upholds FriendSeen.Sends (fun _ _ => True)
      (fun t _ => OrderedKeys t) fun _ _ _ => True where
  init := hinit
  obeys := program_obeys
  start _ _ _ ht := ⟨ht, trivial⟩
  call _ ht _ hsends hexec := ⟨(exec_step ht hsends hexec).ordered, trivial⟩
  stable _ _ _ _ _ _ := trivial

variable {fmt}

/-- A step of the system leaves the rows alone or is one of the call that acts. -/
theorem friendStep_of_reach (hinit : ∀ t, Init t → OrderedKeys t)
    (hs : (friendCalls fmt Init).lts.Reach ok s)
    (hstep : (friendCalls fmt Init).step s l = some s') :
    s'.state = s.state ∨ ∃ seen, s.acting l = some seen ∧
      ∃ (γ : Type) (op : FriendOp γ), FriendStep seen op s.state s'.state := by
  have hupholds := friendCalls_upholds fmt hinit
  rcases hupholds.of_step hs hstep with
    hsame | ⟨_, seen, hacting, -, env, γ, op, answer, hsends, hexec⟩
  · exact .inl hsame
  · exact .inr ⟨seen, hacting, γ, op, exec_step (hupholds.invariant hs).state hsends hexec⟩

/-- The unique key is one on unordered pairs. -/
theorem pairs_nodup {t : FriendStore} (ht : OrderedKeys t) :
    (t.rows.map fun f => orderedPair f.requesterId f.addresseeId).Nodup := by
  rw [← List.map_congr_left ht]
  exact t.pair_nodup

/-- A row that appears, changes or disappears is one of the user who acts. -/
theorem FriendStep.of_user {seen : FriendSeen} {γ : Type} {op : FriendOp γ} {t t' : FriendStore}
    (h : FriendStep seen op t t') {f : FriendshipEntry} (hf : ¬ (f ∈ t.rows ↔ f ∈ t'.rows)) :
    ∃ user, seen.user = some user ∧ f.Of user := by
  by_cases hbefore : f ∈ t.rows
  · have hgone : f ∉ t'.rows := fun hafter => hf ⟨fun _ => hafter, fun _ => hbefore⟩
    rcases h.removed f hbefore hgone with ⟨huser, -, -⟩ | ⟨-, userA, userB, huser, -, hpair⟩
    · exact ⟨_, huser, .inr rfl⟩
    · refine ⟨userA, huser, ?_⟩
      rcases orderedPair_eq_iff.mp hpair with ⟨hreq, -⟩ | ⟨-, haddr⟩
      · exact .inl hreq
      · exact .inr haddr
  · have hafter : f ∈ t'.rows := by
      by_contra hafter
      exact hf ⟨fun h => absurd h hbefore, fun h => absurd h hafter⟩
    rcases h.written f hafter hbefore with ⟨huser, -, -⟩ | ⟨huser, -, -, -⟩
    · exact ⟨_, huser, .inl rfl⟩
    · exact ⟨_, huser, .inr rfl⟩

end

/-! ## A request and its acceptance -/

theorem alice_zhong_nodup : ([alice, zhong].map Account.id).Nodup := by decide

/-- Two users and no friendship. -/
def strangers : FriendStore where
  users := [alice, zhong]
  rows := []
  users_nodup := alice_zhong_nodup
  requester_exists := by decide
  addressee_exists := by decide
  not_self := by decide
  pair_order := by decide
  id_nodup := by decide
  pair_nodup := by decide

def fixedTime : TimeFormat := ⟨fun _ => str "2026-06-23 12:00:00", fun _ => rfl⟩

def authenticatedAs (userId : UserId) : FriendEnv :=
  { session := some { authenticated := true, userId } }

def userFound (userId : UserId) : FriendEnv :=
  { user := { status := .ok, user := some ⟨userId, [], [], []⟩ } }

/-- User 1 asks, user 2 accepts; the two calls take turns. -/
def requested : List (ThreadLabel FriendRequest FriendEnv) :=
  [.start (.add 7 2), .call 0 (authenticatedAs 1), .call 0 (userFound 2), .call 0 {}, .call 0 {},
    .call 0 {}, .start (.accept 8 1), .call 0 { sql := { id := 1, now := 100 } },
    .call 1 (authenticatedAs 2), .call 1 (userFound 1), .call 1 {}, .call 1 {}, .call 0 {},
    .call 1 {}, .call 1 { sql := { now := 200 } }]

/-- The row they leave. -/
def befriended : FriendshipEntry := ⟨⟨1, 1, 2, .accepted, 100, 200⟩, 1, 2⟩

/-- The tables in which one of the two has blocked the other. -/
def Blocked (a b : UserId) (t : FriendStore) : Prop :=
  OrderedKeys t ∧
    ∃ f ∈ t.rows, f.status = .blocked ∧ orderedPair f.requesterId f.addresseeId = orderedPair a b

/-- Nothing else touches a blocked row: `acceptFriend` updates pending rows only. -/
theorem Blocked.exec {fmt : TimeFormat} {env : FriendEnv} {a b : UserId} {t t' : FriendStore}
    {seen : FriendSeen} {γ : Type} {op : FriendOp γ} {answer : γ} (h : Blocked a b t)
    (hsends : seen.Sends op) (hnot : deletesPair (orderedPair a b) op = false)
    (hexec : env.exec fmt t op = some (answer, t')) : Blocked a b t' := by
  obtain ⟨hordered, f, hf, hblocked, hpair⟩ := h
  have hstep := exec_step hordered hsends hexec
  refine ⟨hstep.ordered, f, ?_, hblocked, hpair⟩
  by_contra hgone
  rcases hstep.removed f hf hgone with ⟨-, -, hpending⟩ | ⟨hdeletes, -⟩
  · rw [hblocked] at hpending
    cases hpending
  · rw [hpair, hnot] at hdeletes
    cases hdeletes

/-- As long as no `deleteFriend` of one of the two that names the other comes to its
`DELETE`, the pair has no pending and no accepted row, whatever calls are made
besides. -/
theorem block_kept {fmt : TimeFormat} {a b : UserId}
    {s : Shared FriendOp JsonException FriendshipActionResult FriendStore FriendSeen}
    (hs : (friendCalls fmt (Blocked a b)).lts.Reach
      (fun s l => s.carries (deletesPair (orderedPair a b)) l = false) s) :
    ∀ f ∈ s.state.rows, orderedPair f.requesterId f.addresseeId = orderedPair a b →
      f.status ≠ .pending ∧ f.status ≠ .accepted := by
  have hupholds := friendCalls_upholds fmt fun t (h : Blocked a b t) => h.1
  have hblocked : Blocked a b s.state := by
    induction hs with
    | init hinit => exact hinit.1
    | @step s l s' hreach hok hstep ih =>
      cases l with
      | start request =>
        obtain rfl := Option.some.inj hstep
        exact ih
      | call i env =>
        obtain ⟨c⟩ := Threads.call_inv hstep
        rw [c.carries] at hok
        exact ih.exec ((hupholds.invariant hreach).guar_of_calls c) hok c.exec
  obtain ⟨hordered, g, hg, hstatus, hpair⟩ := hblocked
  intro f hf hsame
  -- the pair has one row
  have heq : f = g := s.state.eq_of_pair hf hg (by rw [hordered f hf, hordered g hg, hsame, hpair])
  rw [heq, hstatus]
  exact ⟨by decide, by decide⟩

/-- User 1 has blocked user 2. -/
def blockedPair : FriendStore where
  users := [alice, zhong]
  rows := [⟨⟨1, 1, 2, .blocked, 100, 100⟩, 1, 2⟩]
  users_nodup := alice_zhong_nodup
  requester_exists := by decide
  addressee_exists := by decide
  not_self := by decide
  pair_order := by decide
  id_nodup := by decide
  pair_nodup := by decide

theorem blocked_blockedPair : Blocked 1 2 blockedPair :=
  ⟨fun f hf => by rw [List.mem_singleton.mp hf]; rfl, _, List.mem_singleton.mpr rfl, rfl, rfl⟩

/-- User 2 asks user 1, who tries to accept; a `deleteFriend` of user 2 gets no
connection. -/
def refusedCalls : List (ThreadLabel FriendRequest FriendEnv) :=
  [.start (.add 8 1), .call 0 (authenticatedAs 2), .call 0 (userFound 1), .call 0 {}, .call 0 {},
    .start (.accept 7 2), .call 1 (authenticatedAs 1), .call 1 (userFound 2), .call 1 {},
    .call 1 {}, .start (.delete 8 1), .call 2 (authenticatedAs 2),
    .call 2 { sql := { borrowError := some .borrowTimeout } }]

theorem block_kept_refused :
    ∃ s, (friendCalls fixedTime (Blocked 1 2)).lts.Reachable s ∧ s.threads.length = 3 ∧
      (s.state.rows.all fun f => f.status ≠ .pending ∧ f.status ≠ .accepted) = true := by
  have hok : (friendCalls fixedTime (Blocked 1 2)).lts.RunOk
      (fun s l => s.carries (deletesPair (orderedPair 1 2)) l = false) ⟨blockedPair, []⟩
      refusedCalls := by
    decide +kernel
  have hinit : (friendCalls fixedTime (Blocked 1 2)).lts.Init ⟨blockedPair, []⟩ :=
    ⟨blocked_blockedPair, rfl⟩
  obtain ⟨s, hs, htest⟩ := Lts.exists_reach_of_run
    (fun s => s.threads.length = 3 ∧
      ∀ f ∈ s.state.rows, orderedPair f.requesterId f.addresseeId = orderedPair 1 2)
    refusedCalls hinit hok (by decide +kernel)
  obtain ⟨hcount, hpairs⟩ := of_decide_eq_true htest
  refine ⟨s, hs.reachable, hcount, List.all_eq_true.mpr fun f hf => decide_eq_true ?_⟩
  exact block_kept hs f hf (hpairs f hf)

/-- User 2 deletes the row that blocks them and asks again. -/
def liftingCalls : List (ThreadLabel FriendRequest FriendEnv) :=
  [.start (.delete 8 1), .call 0 (authenticatedAs 2), .call 0 {}, .call 0 {},
    .start (.add 8 1), .call 1 (authenticatedAs 2), .call 1 (userFound 1), .call 1 {}, .call 1 {},
    .call 1 {}, .call 1 { sql := { id := 2, now := 200 } }, .call 1 {}]

/-- `deleteFriend` does not look at the status: user 2 lifts the block of user 1
alone. -/
theorem block_lifted :
    ∃ s, (friendCalls fixedTime (Blocked 1 2)).lts.Reachable s ∧
      (∀ th ∈ s.threads, th.seen.user = some 2) ∧
      s.state.rows = [⟨⟨2, 2, 1, .pending, 200, 200⟩, 1, 2⟩] := by
  obtain ⟨s, hs, htest⟩ := Lts.exists_reach_of_run
    (M := (friendCalls fixedTime (Blocked 1 2)).lts) (s := ⟨blockedPair, []⟩)
    (fun s => (∀ th ∈ s.threads, th.seen.user = some 2) ∧
      s.state.rows = [⟨⟨2, 2, 1, .pending, 200, 200⟩, 1, 2⟩])
    liftingCalls ⟨blocked_blockedPair, rfl⟩ Lts.runOk_true (by decide +kernel)
  exact ⟨s, hs, of_decide_eq_true htest⟩

end ChatServer.Service
