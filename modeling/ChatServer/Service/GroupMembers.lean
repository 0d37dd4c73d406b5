import ChatServer.Base.Threads
import ChatServer.Db.GroupRepository
import ChatServer.Service.FreshIds

/-!
# The members of a group

Calls of `createGroup`, `addGroupMember` and `sendGroupMessage` on any number of
connections, interleaved statement by statement on one database. Any statement may
fail or go unanswered; a `ROLLBACK` succeeds, or the connection is gone and the
server rolls back.

* `GroupCaller` — what a call has learnt: the session of its connection and the
  members it was shown;
* `GroupSeen.Sends` — which statements a call may send;
* `groupCalls_upholds` — what every statement keeps;
* `group_membership` — the groups and their members in every reachable state, who has
  added them, and what a failed `createGroup` leaves.
-/

namespace ChatServer.Service

open Base Db Codec

/-! ## Calls -/

inductive GroupRequest where
  | create (conn : ConnId) (req : CreateGroupRequest)
  | add (conn : ConnId) (req : AddGroupMemberRequest)
  | send (conn : ConnId) (req : SendGroupMessageRequest)

namespace GroupRequest

def conn : GroupRequest → ConnId
  | .create conn _ => conn
  | .add conn _ => conn
  | .send conn _ => conn

def isCreate : GroupRequest → Bool
  | .create _ _ => true
  | _ => false

/-- The function of `GroupService` that serves the request, and its code. -/
def action (w : Wiring) : GroupRequest → Action ErrorCode
  | .create conn req => do return (← GroupService.createGroup conn req).code
  | .add conn req => do return (← GroupService.addGroupMember conn req).code
  | .send conn req => do return (← GroupService.sendGroupMessage w conn req).code

end GroupRequest

/-- A call, the session of its connection, and the members it was shown last with the
group id it asked for. -/
structure GroupCaller where
  request : GroupRequest
  session : Option ConnectionSession := none
  listed : Bytes × List GroupMemberRecord := ([], [])

namespace GroupCaller

/-- The user the connection is authenticated as. -/
def user (s : GroupCaller) : Option UserId :=
  (s.session.filter (·.authenticated)).map (·.userId)

/-- What the service learns from an answer; a session it has stays. -/
def note (s : GroupCaller) : Event Call → GroupCaller
  | ⟨.getSession conn, r⟩ =>
    if conn = s.request.conn then { s with session := s.session.or r } else s
  | ⟨.listMembers groupId, r⟩ =>
    if r.status = .ok then { s with listed := (groupId, r.members) } else s
  | _ => s

/-- What it learns from a statement. -/
def list (s : GroupCaller) : Event GroupSql → GroupCaller
  | ⟨.selectMembers groupId, .ok members⟩ => { s with listed := (groupId, members) }
  | _ => s

/-- A group that the user founds, with its first members. -/
def Founds (s : GroupCaller) (g : GroupRecord) (members : List GroupMemberRecord) : Prop :=
  ∃ conn req, ∃ ids : List UserId, s.request = .create conn req ∧ s.user = some g.ownerId ∧
    ids.Nodup ∧ g.ownerId ∈ ids ∧ (∀ id ∈ ids, id = g.ownerId ∨ id ∈ req.memberIds) ∧
    members = ids.map fun id =>
      { groupId := g.id, userId := id
        role := if id = g.ownerId then str "owner" else str "member" }

/-- A member that the user may add, by the list they were shown. -/
def Manages (s : GroupCaller) (m : GroupMemberRecord) : Prop :=
  ∃ conn req user actor, s.request = .add conn req ∧ m = ⟨req.groupId, req.userId, str "member"⟩ ∧
    s.user = some user ∧ s.listed.1 = req.groupId ∧ actor ∈ s.listed.2 ∧ actor.userId = user ∧
    GroupService.roleCanManageMembers actor.role = true

/-- The calls the service makes. -/
def Makes (s : GroupCaller) : ∀ {γ : Type}, Call γ → Prop
  | _, .getSession conn => conn = s.request.conn
  | _, .findById _ => True
  | _, .now => True
  | _, .getRandom _ => True
  | _, .nextRandom => True
  | _, .nextGroupMessageSeq => True
  | _, .getConnectionId _ => True
  | _, .findGroup _ => True
  | _, .listMembers _ => True
  | _, .createMessage _ => True
  | _, .createGroup g members => s.Founds g members
  | _, .addMember m => s.Manages m
  | _, _ => False

end GroupCaller

/-! ## What the services guarantee -/

namespace GroupService

abbrev CallerObeys {α : Type} (Q : α → GroupCaller → Prop) (p : Action α) (s : GroupCaller) :
    Prop :=
  p.Obeys GroupCaller.note GroupCaller.Makes Q s

/-- The first call: afterwards the session is known. -/
theorem groupSession_obeys {s : GroupCaller} (hnew : s.session = none) :
    CallerObeys (fun r s' => s'.request = s.request ∧ s'.user = r.map (·.userId))
      (getAuthenticatedSession s.request.conn) s := by
  refine .call rfl fun r => .pure ?_
  have hnote : s.note ⟨.getSession s.request.conn, r⟩ = { s with session := s.session.or r } :=
    if_pos rfl
  rw [hnote, hnew]
  exact ⟨rfl, rfl⟩

theorem userMissing_obeys (userId : UserId) (s : GroupCaller) :
    CallerObeys (fun _ s' => s' = s) (userMissing userId) s :=
  .call trivial fun _ => .pure rfl

theorem missingMember_obeys (ids : List UserId) (s : GroupCaller) :
    CallerObeys (fun _ s' => s' = s) (missingMember ids) s := by
  induction ids with
  | nil => exact .pure rfl
  | cons id rest ih =>
    refine .bind (userMissing_obeys id s) fun missing s' hs => ?_
    subst hs
    cases missing with
    | some status => exact .pure rfl
    | none => exact ih

theorem buildGroupId_obeys (s : GroupCaller) :
    CallerObeys (fun _ s' => s' = s) buildGroupId s :=
  .bind (.call trivial fun _ => .pure rfl) fun _ _ hs => .pure hs

theorem createGroup_obeys (conn : ConnId) (req : CreateGroupRequest) :
    CallerObeys (fun _ _ => True) (createGroup conn req) { request := .create conn req } := by
  refine .bind (groupSession_obeys rfl) fun session s hs => ?_
  obtain ⟨hrequest, huser⟩ := hs
  cases session with
  | none => exact .pure trivial
  | some session =>
    dsimp only
    split
    · exact .pure trivial
    refine .exit trivial fun _ => ?_
    split
    next ids hids =>
      obtain ⟨hnodup, hkept, hfrom⟩ := uniqueMembers_spec (List.nodup_singleton _) hids
      refine .bind (missingMember_obeys ids s) fun missing s' hs => ?_
      subst hs
      split
      · exact .pure trivial
      refine .bind (buildGroupId_obeys s') fun id s hs => ?_
      subst hs
      refine .exit trivial fun _ => ?_
      refine .call ?_ fun created => ?_
      · refine ⟨conn, req, ids, hrequest, huser, hnodup, hkept _ (List.mem_singleton.mpr rfl),
          fun x hx => ?_, rfl⟩
        exact (hfrom x hx).imp_left List.mem_singleton.mp
      · split
        · exact .pure trivial
        · exact .pure trivial
    next => exact .pure trivial

theorem addGroupMember_obeys (conn : ConnId) (req : AddGroupMemberRequest) :
    CallerObeys (fun _ _ => True) (addGroupMember conn req) { request := .add conn req } := by
  refine .bind (groupSession_obeys rfl) fun session s hs => ?_
  obtain ⟨hrequest, huser⟩ := hs
  cases session with
  | none => exact .pure trivial
  | some session =>
    dsimp only
    split
    · exact .pure trivial
    refine .exit trivial fun _ => ?_
    refine .bind (userMissing_obeys req.userId s) fun missing s' hs => ?_
    subst hs
    split
    · exact .pure trivial
    refine .call trivial fun group => ?_
    refine .exit trivial fun _ => .exit trivial fun _ => ?_
    refine .call trivial fun members => ?_
    refine .ite (fun _ => .pure trivial) fun hok => ?_
    have hnote : GroupCaller.note s' ⟨.listMembers req.groupId, members⟩ =
        { s' with listed := (req.groupId, members.members) } := if_pos (not_not.mp hok)
    rw [show GroupCaller.note s' ⟨.findGroup req.groupId, group⟩ = s' from rfl, hnote]
    split
    next actor hactor =>
      obtain ⟨hfind, hrole⟩ := Option.filter_eq_some_iff.mp hactor
      have hself : actor.userId = session.userId := by simpa using List.find?_some hfind
      refine .exit trivial fun _ => ?_
      refine .call ?_ fun added => ?_
      · exact ⟨conn, req, session.userId, actor, hrequest, rfl, huser, rfl,
          List.mem_of_find?_eq_some hfind, hself, hrole⟩
      · refine .exit trivial fun _ => ?_
        split
        · exact .pure trivial
        · exact .pure trivial
    next => exact .pure trivial

theorem deliverTo_obeys (w : Wiring) (session : ConnectionSession) (req : SendGroupMessageRequest)
    (conversationId : Bytes) (now : Timestamp) (toUserId : UserId) (s : GroupCaller) :
    CallerObeys (fun _ _ => True) (deliverTo w session req conversationId now toUserId) s := by
  refine .call trivial fun random => .call trivial fun seq => .call trivial fun stored => ?_
  split
  · exact .pure trivial
  · exact .exit trivial fun _ => .call trivial fun _ => .pure trivial

theorem fanOut_obeys (w : Wiring) (session : ConnectionSession) (req : SendGroupMessageRequest)
    (conversationId : Bytes) (now : Timestamp) (ids : List UserId) (s : GroupCaller) :
    CallerObeys (fun _ _ => True) (fanOut w session req conversationId now ids) s := by
  induction ids generalizing s with
  | nil => exact .pure trivial
  | cons id rest ih =>
    refine .bind (deliverTo_obeys w session req conversationId now id s) fun delivery s' _ => ?_
    cases delivery with
    | error e => exact .pure trivial
    | ok delivery => exact .bind (ih s') fun _ _ _ => .pure trivial

theorem sendGroupMessage_obeys (w : Wiring) (conn : ConnId) (req : SendGroupMessageRequest) :
    CallerObeys (fun _ _ => True) (sendGroupMessage w conn req) { request := .send conn req } := by
  refine .bind (groupSession_obeys rfl) fun session s _ => ?_
  cases session with
  | none => exact .pure trivial
  | some session =>
    dsimp only
    split
    · exact .pure trivial
    split
    · exact .pure trivial
    split
    · exact .pure trivial
    refine .call trivial fun found => .exit trivial fun _ => ?_
    split
    next group =>
      refine .call trivial fun members => ?_
      refine .exit trivial fun _ => .exit trivial fun _ => ?_
      refine .call trivial fun now => .bind (fanOut_obeys w session req _ now _ _) ?_
      intro deliveries s' _
      cases deliveries with
      | error e => exact .pure trivial
      | ok messages => exact .pure trivial
    next => exact .pure trivial

theorem groupAction_obeys (w : Wiring) (request : GroupRequest) :
    CallerObeys (fun _ _ => True) (request.action w) { request } := by
  cases request with
  | create conn req => exact .bind (createGroup_obeys conn req) fun _ _ _ => .pure trivial
  | add conn req => exact .bind (addGroupMember_obeys conn req) fun _ _ _ => .pure trivial
  | send conn req => exact .bind (sendGroupMessage_obeys w conn req) fun _ _ _ => .pure trivial

end GroupService

/-! ## What the repositories guarantee -/

/-- The calls of the service that do not go to a repository, and the statements of
those that do. -/
abbrev GroupOp := OpSum Call GroupSql

/-- A function of a repository, in the service. -/
def inService {α : Type} (p : Prog GroupSql JsonException α) : Prog GroupOp JsonException α :=
  p.handle fun _ op => Prog.perform (.inr op)

/-- The service on top of the repositories. -/
def onGroupRepository : ∀ γ, Call γ → Prog GroupOp JsonException γ
  | _, .createGroup g members =>
    inService (GroupRepository.withConnection (fun status => { status })
      ((GroupRepository.createGroup g members).lift .sql))
  | _, .findGroup groupId => inService (GroupRepository.findGroup groupId)
  | _, .addMember member => inService (GroupRepository.addMember member)
  | _, .listMembers groupId => inService (GroupRepository.listMembers groupId)
  | _, .createMessage message =>
    inService (GroupRepository.withConnection .failed
      ((MessageRepository.createMessage message).lift .sql))
  | _, op => Prog.perform (.inl op)

/-- A call as its statements show it: the caller, how far its transaction has come,
and whether a `COMMIT` was sent. -/
structure GroupSeen where
  caller : GroupCaller
  progress : GroupProgress := .idle
  committing : Bool := false

namespace GroupSeen

def isCommit : ∀ {γ : Type}, GroupSql γ → Bool
  | _, .sql (.query .commit) => true
  | _, _ => false

def see (s : GroupSeen) : Event GroupOp → GroupSeen
  | ⟨.inl op, r⟩ => { s with caller := s.caller.note ⟨op, r⟩ }
  | ⟨.inr op, r⟩ =>
    { caller := s.caller.list ⟨op, r⟩
      progress := s.progress.see ⟨op, r⟩
      committing := if isCommit op then true else s.committing }

/-- The statements a call may send. -/
def Sends (s : GroupSeen) : ∀ {γ : Type}, GroupOp γ → Prop
  | _, .inl _ => True
  | _, .inr op =>
    s.progress.Sends op ∧
      match op with
      | .sql (.query .commit) =>
        ∀ g members, s.progress = .group g members → s.caller.Founds g members
      | .insertGroupMember member => s.caller.Manages member
      | .selectMembers _ => s.progress = .idle
      | _ => True

/-- Between two calls of the service: the caller is known and no transaction is open. -/
def Rests (caller : GroupCaller) (s : GroupSeen) : Prop :=
  s.caller = caller ∧ s.progress = .idle

theorem Rests.lost {caller : GroupCaller} {s : GroupSeen} (h : s.Rests caller) :
    s.progress.lost = .idle := by
  rw [h.2]
  rfl

end GroupSeen

namespace GroupCaller

/-- A founder's group has one owner and no member twice. -/
theorem Founds.wellStaffed {s : GroupCaller} {g : GroupRecord} {members : List GroupMemberRecord}
    (h : s.Founds g members) : WellStaffed g members := by
  obtain ⟨conn, req, ids, -, -, hnodup, howner, -, rfl⟩ := h
  constructor
  · have hrole : ((fun m : GroupMemberRecord => decide (m.role = str "owner")) ∘ fun id =>
        ({ groupId := g.id, userId := id
           role := if id = g.ownerId then str "owner" else str "member" } : GroupMemberRecord)) =
        fun id => decide (id = g.ownerId) := by
      funext id
      by_cases hid : id = g.ownerId
      · simp [hid]
      · have hne : str "member" ≠ str "owner" := by decide
        simp [hid, hne]
    rw [List.filter_map, hrole, List.map_map]
    show (ids.filter (· == g.ownerId)).map id = _
    rw [List.map_id, List.filter_beq, List.count_eq_one_of_mem hnodup howner]
    rfl
  · rw [List.map_map]
    show (ids.map id).Nodup
    rwa [List.map_id]

theorem Founds.groupId {s : GroupCaller} {g : GroupRecord} {members : List GroupMemberRecord}
    (h : s.Founds g members) {m : GroupMemberRecord} (hm : m ∈ members) : m.groupId = g.id := by
  obtain ⟨conn, req, ids, -, -, -, -, -, rfl⟩ := h
  obtain ⟨id, -, rfl⟩ := List.mem_map.mp hm
  rfl

end GroupCaller

section

variable {α : Type} {s : GroupSeen} {caller : GroupCaller}

/-- What a function of a repository sends. -/
abbrev SqlObeys {ε : Type} (Q : α → GroupSeen → Prop) (p : Prog GroupSql ε α) (s : GroupSeen) :
    Prop :=
  p.Obeys (fun s e => s.see ⟨.inr e.op, e.answer⟩) (fun s _ op => s.Sends (.inr op)) Q s

/-- What it sends inside a transaction. -/
abbrev WorkObeys (Q : α → GroupSeen → Prop) (p : Work α) (s : GroupSeen) : Prop :=
  p.Obeys (fun s e => s.see ⟨.inr (.sql e.op), e.answer⟩) (fun s _ op => s.Sends (.inr (.sql op)))
    Q s

theorem inService_obeys {Q : α → GroupSeen → Prop} {p : Prog GroupSql JsonException α}
    (h : SqlObeys Q p s) : (inService p).Obeys GroupSeen.see GroupSeen.Sends Q s := by
  refine .handle ?_ h
  intro s γ op hop
  exact .perform hop fun _ => rfl

theorem statementFault_sends (errno : Nat) (fallback : RepositoryStatus) :
    WorkObeys (fun _ s' => s' = s) (statementFault .markBad errno fallback) s :=
  .ite (fun _ => .call ⟨trivial, trivial⟩ fun _ => .pure rfl) fun _ => .pure rfl

theorem executeCommand_sends {command : SqlCommand} {Q : Bool → GroupSeen → Prop}
    (hsends : s.Sends (.inr (.sql (.query command))))
    (hdone : Q true (s.see ⟨.inr (.sql (.query command)), .ok ()⟩))
    (hfault : ∀ errno, Q false (s.see ⟨.inr (.sql (.query command)), .error errno⟩)) :
    WorkObeys Q (executeCommand command) s := by
  refine .call hsends fun r => ?_
  cases r with
  | ok u => exact .pure hdone
  | error errno =>
    exact .ite (fun _ => .call ⟨trivial, trivial⟩ fun _ => .pure (hfault errno)) fun _ =>
      .pure (hfault errno)

/-- A statement of a transaction, and how far it brings the transaction. -/
theorem update_sends {statement : SqlUpdate} {fallback : RepositoryStatus} {next : GroupProgress}
    (hcaller : s.caller = caller) (hmay : s.progress.May statement)
    (hafter : s.progress.after statement = next) :
    WorkObeys (fun r s' => s'.caller = caller ∧ ∀ n, r = .ok n → s'.progress = next)
      (executeUpdate statement fallback) s := by
  refine .call ⟨hmay, trivial⟩ fun r => ?_
  cases r with
  | ok n => exact .pure ⟨hcaller, fun _ _ => hafter⟩
  | error errno =>
    refine .bind (statementFault_sends errno fallback) fun status s' hs => .pure ?_
    subst hs
    exact ⟨hcaller, nofun⟩

theorem start_sends (hrests : s.Rests caller) :
    WorkObeys (fun begun s' => s'.caller = caller ∧
      s'.progress = if begun = true then .begun else .idle) (executeCommand .startTransaction) s :=
  executeCommand_sends ⟨hrests.2, trivial⟩ ⟨hrests.1, rfl⟩ fun _ => hrests

theorem commit_sends (hcaller : s.caller = caller)
    (hsends : s.Sends (.inr (.sql (.query .commit)))) :
    WorkObeys (fun done s' => s'.caller = caller ∧ (done = true → s'.progress = .idle))
      (executeCommand .commit) s :=
  executeCommand_sends hsends ⟨hcaller, fun _ => rfl⟩ fun _ => ⟨hcaller, nofun⟩

/-- A repository gives up: whatever `ROLLBACK` answers, the transaction is over. -/
theorem rollback_sends (hcaller : s.caller = caller) :
    WorkObeys (fun _ s' => s'.Rests caller) (executeCommand .rollback) s :=
  executeCommand_sends ⟨trivial, trivial⟩ ⟨hcaller, rfl⟩ fun _ => ⟨hcaller, rfl⟩

theorem withConnection_sends {Q : α → GroupSeen → Prop} {failed : RepositoryStatus → α}
    {p : Prog GroupSql JsonException α} (hfailed : ∀ status, status ≠ .ok → Q (failed status) s)
    (hp : SqlObeys Q p s) : SqlObeys Q (GroupRepository.withConnection failed p) s := by
  refine .call ⟨trivial, trivial⟩ fun error => ?_
  cases error with
  | none => exact hp
  | some error =>
    refine .pure (hfailed _ ?_)
    unfold mapBorrowError
    split <;> nofun

end

/-! ### Creating a group -/

section

variable {s : GroupSeen} {caller : GroupCaller} {g : GroupRecord}

theorem abandonGroup_sends (hcaller : s.caller = caller) (status : RepositoryStatus) :
    WorkObeys (fun _ s' => s'.Rests caller) (GroupRepository.abandon status) s :=
  .bind (.bind (rollback_sends hcaller) fun _ _ hs => .pure hs) fun _ _ hs => .pure hs

/-- The members one after the other, and `COMMIT`. -/
theorem insertMembers_sends {inserted rest : List GroupMemberRecord}
    (hfounds : caller.Founds g (inserted ++ rest)) (hcaller : s.caller = caller)
    (hprogress : s.progress = .group g inserted) :
    WorkObeys (fun _ s' => s'.Rests caller) (GroupRepository.insertMembers g rest) s := by
  induction rest generalizing s inserted with
  | nil =>
    rw [List.append_nil] at hfounds
    refine .bind (commit_sends hcaller ⟨.inr ⟨g, inserted, hprogress, hfounds.wellStaffed⟩,
      fun g' members hgroup => ?_⟩) fun done s' hs => ?_
    · obtain ⟨rfl, rfl⟩ := GroupProgress.group.inj (hprogress.symm.trans hgroup)
      rw [hcaller]
      exact hfounds
    · exact .ite (fun hdone => .pure ⟨hs.1, hs.2 hdone⟩) fun _ => abandonGroup_sends hs.1 _
  | cons member rest ih =>
    have hmember : member.groupId = g.id ∧ member.userId ∉ inserted.map (·.userId) := by
      refine ⟨hfounds.groupId (List.mem_append_right _ List.mem_cons_self), fun hmem => ?_⟩
      have hnodup := hfounds.wellStaffed.nodup
      rw [List.map_append, List.map_cons] at hnodup
      exact (List.nodup_append.mp hnodup).2.2 _ hmem _ List.mem_cons_self rfl
    have hafter : s.progress.after (.upsertGroupMember member) =
        .group g (inserted ++ [member]) := by rw [hprogress]; rfl
    refine .bind (update_sends hcaller ⟨g, inserted, hprogress, hmember⟩ hafter) fun r s' hs => ?_
    cases r with
    | error e => exact abandonGroup_sends hs.1 _
    | ok n =>
      refine ih ?_ hs.1 (hs.2 n rfl)
      rwa [List.append_assoc]

theorem createGroup_sends {members : List GroupMemberRecord} (hfounds : caller.Founds g members)
    (hrests : s.Rests caller) :
    WorkObeys (fun _ s' => s'.Rests caller) (GroupRepository.createGroup g members) s := by
  refine .bind (start_sends hrests) fun begun s' hs => ?_
  refine .ite (fun hbegun => ?_) fun hnot => ?_
  · rw [if_pos hbegun] at hs
    refine .bind (update_sends hs.1 ⟨hs.2, rfl⟩ rfl) fun r s' hs => ?_
    cases r with
    | error e => exact abandonGroup_sends hs.1 _
    | ok n =>
      refine .bind (update_sends hs.1 (hs.2 n rfl) rfl) fun r s' hs => ?_
      cases r with
      | error e => exact abandonGroup_sends hs.1 _
      | ok n =>
        rw [← List.nil_append members] at hfounds
        exact insertMembers_sends hfounds hs.1 (hs.2 n rfl)
  · rw [if_neg hnot] at hs
    exact .pure hs

end

/-! ### Storing a message -/

section

variable {s : GroupSeen} {caller : GroupCaller}

open MessageRepository

/-- The message statements: none of them brings the transaction further. -/
theorem messageUpdate_sends {statement : SqlUpdate} {fallback : RepositoryStatus}
    (hcaller : s.caller = caller) (hbegun : s.progress = .begun)
    (hmay : GroupProgress.begun.May statement)
    (hafter : GroupProgress.begun.after statement = .begun) :
    WorkObeys (fun r s' => s'.caller = caller ∧ ∀ n, r = .ok n → s'.progress = .begun)
      (executeUpdate statement fallback) s := by
  refine update_sends hcaller (hbegun ▸ hmay) ?_
  rw [hbegun, hafter]

theorem messageRollback_sends (hcaller : s.caller = caller) :
    WorkObeys (fun _ s' => s'.Rests caller) rollback s :=
  .bind (rollback_sends hcaller) fun _ _ hs =>
    .exit hs fun _ => .perform ⟨trivial, trivial⟩ fun _ => hs

theorem abandonMessage_sends (hcaller : s.caller = caller) (status : RepositoryStatus) :
    WorkObeys (fun _ s' => s'.Rests caller) (abandonMessage status) s :=
  .bind (messageRollback_sends hcaller) fun _ _ hs => .pure hs

theorem readMessage_sends (hrests : s.Rests caller) (fromUserId : UserId) (clientMsgId : Bytes) :
    WorkObeys (fun _ s' => s'.Rests caller)
      (MessageRepository.readMessageByClientId fromUserId clientMsgId) s := by
  refine .call ⟨trivial, trivial⟩ fun r => ?_
  cases r with
  | ok row =>
    cases row with
    | none => exact .pure hrests
    | some row =>
      cases row with
      | none => exact .pure hrests
      | some m => exact .pure hrests
  | error errno =>
    refine .bind (statementFault_sends errno _) fun _ s' hs => .pure ?_
    subst hs
    exact ⟨hrests.1, hrests.lost⟩

theorem insertMessage_sends (m : MessageRecord) (sequence : Int) (hcaller : s.caller = caller)
    (hbegun : s.progress = .begun) :
    WorkObeys (fun _ s' => s'.Rests caller) (insertMessage m sequence) s := by
  refine .bind (messageUpdate_sends hcaller hbegun rfl rfl) fun r s' hs => ?_
  cases r with
  | error e =>
    refine .bind (messageRollback_sends hs.1) fun _ s' hs => .ite (fun _ => ?_) fun _ => .pure hs
    refine .bind (readMessage_sends hs _ _) fun duplicate s' hs => ?_
    split
    · exact .pure hs
    · exact .pure hs
  | ok n =>
    have hprogress := hs.2 n rfl
    refine .bind (commit_sends hs.1 ⟨.inl hprogress, fun g members hgroup => ?_⟩)
      fun done s' hs => ?_
    · cases hprogress.symm.trans hgroup
    · exact .ite (fun hdone => .pure ⟨hs.1, hs.2 hdone⟩) fun _ => abandonMessage_sends hs.1 _

theorem allocateSequence_sends (m : MessageRecord) (hcaller : s.caller = caller)
    (hbegun : s.progress = .begun) :
    WorkObeys (fun _ s' => s'.Rests caller) (allocateSequence m) s := by
  refine .bind (messageUpdate_sends hcaller hbegun rfl rfl) fun r s' hs => ?_
  cases r with
  | error e => exact abandonMessage_sends hs.1 _
  | ok n =>
    obtain ⟨hcaller, hprogress⟩ := hs
    have hbegun := hprogress n rfl
    refine .ite (fun _ => abandonMessage_sends hcaller _) fun _ => ?_
    have hselect : WorkObeys (fun r s' => s'.caller = caller ∧
        ∀ sequence, r = some sequence → s'.progress = .begun) selectLastInsertId s' := by
      refine .call ⟨trivial, trivial⟩ fun r => ?_
      cases r with
      | ok value => exact .pure ⟨hcaller, fun _ _ => hbegun⟩
      | error errno =>
        refine .bind (statementFault_sends errno _) fun _ s' hs => .pure ?_
        subst hs
        exact ⟨hcaller, nofun⟩
    refine .bind hselect fun value s' hs => ?_
    cases value with
    | none => exact abandonMessage_sends hs.1 _
    | some sequence =>
      exact .ite (fun _ => abandonMessage_sends hs.1 _) fun _ =>
        insertMessage_sends m sequence hs.1 (hs.2 sequence rfl)

theorem upsertMembers_sends (m : MessageRecord) (users : List UserId) (hcaller : s.caller = caller)
    (hbegun : s.progress = .begun) :
    WorkObeys (fun _ s' => s'.Rests caller) (upsertMembers m users) s := by
  induction users generalizing s with
  | nil => exact allocateSequence_sends m hcaller hbegun
  | cons user rest ih =>
    refine .bind (messageUpdate_sends hcaller hbegun rfl rfl) fun r s' hs => ?_
    cases r with
    | error e => exact abandonMessage_sends hs.1 _
    | ok n => exact ih hs.1 (hs.2 n rfl)

theorem createMessage_sends (m : MessageRecord) (hrests : s.Rests caller) :
    WorkObeys (fun _ s' => s'.Rests caller) (MessageRepository.createMessage m) s := by
  refine .bind (readMessage_sends hrests _ _) fun existing s' hs => ?_
  split
  · exact .pure hs
  · refine .bind (start_sends hs) fun begun s' hs => ?_
    refine .ite (fun hbegun => ?_) fun hnot => ?_
    · rw [if_pos hbegun] at hs
      refine .bind (messageUpdate_sends hs.1 hs.2 rfl rfl) fun r s' hs => ?_
      cases r with
      | error e => exact abandonMessage_sends hs.1 _
      | ok n => exact upsertMembers_sends m _ hs.1 (hs.2 n rfl)
    · rw [if_neg hnot] at hs
      exact .pure hs
  · exact .pure hs

end

/-! ### The other functions -/

section

variable {s : GroupSeen} {caller : GroupCaller}

/-- A read or an insert that has failed leaves an idle session idle. -/
theorem fault_sends {α : Type} {Q : α → GroupSeen → Prop} {errno : Nat}
    {fallback : RepositoryStatus} {f : RepositoryStatus → α}
    (h : ∀ status, status = .connectionUnavailable ∨ status = fallback → Q (f status) s) :
    SqlObeys Q (do
      let status ← (statementFault .markBad errno fallback).lift .sql
      return f status : Prog GroupSql JsonException α) s := by
  refine .bind (Q := fun status s' =>
    s' = s ∧ (status = .connectionUnavailable ∨ status = fallback)) (.lift ?_)
    fun status s' hs => .pure ?_
  · refine .ite (fun _ => .call ⟨trivial, trivial⟩ fun _ => .pure ⟨rfl, .inl rfl⟩) fun _ => ?_
    exact .pure ⟨rfl, .inr rfl⟩
  · obtain ⟨rfl, hstatus⟩ := hs
    exact h status hstatus

theorem findGroup_sends (groupId : Bytes) (hrests : s.Rests caller) :
    SqlObeys (fun _ s' => s'.Rests caller)
      (GroupRepository.findGroup groupId : Prog GroupSql JsonException GroupResult) s := by
  refine withConnection_sends (fun _ _ => hrests) ?_
  refine .call ⟨trivial, trivial⟩ fun r => ?_
  cases r with
  | ok row =>
    cases row with
    | none => exact .pure hrests
    | some group => exact .pure hrests
  | error errno =>
    exact fault_sends fun _ _ => ⟨hrests.1, hrests.lost⟩

theorem addMember_sends {member : GroupMemberRecord} (hmanages : caller.Manages member)
    (hrests : s.Rests caller) :
    SqlObeys (fun _ s' => s'.Rests caller)
      (GroupRepository.addMember member : Prog GroupSql JsonException AddMemberResult) s := by
  have hrole : member.role ≠ str "owner" := by
    obtain ⟨-, req, -, -, -, rfl, -⟩ := hmanages
    exact (by decide : str "member" ≠ str "owner")
  refine withConnection_sends (fun _ _ => hrests) ?_
  refine .call ⟨⟨hrests.2, hrole⟩, hrests.1 ▸ hmanages⟩ fun r => ?_
  cases r with
  | ok n => exact .pure hrests
  | error errno =>
    exact fault_sends fun _ _ => ⟨hrests.1, hrests.lost⟩

/-- The members the service is shown are those the statement read. -/
theorem listMembers_sends (groupId : Bytes) (hrests : s.Rests caller) :
    SqlObeys (fun r s' => s'.Rests (caller.note ⟨.listMembers groupId, r⟩))
      (GroupRepository.listMembers groupId : Prog GroupSql JsonException ListMembersResult) s := by
  have hfailed : ∀ status, status ≠ RepositoryStatus.ok →
      caller.note ⟨.listMembers groupId, { status }⟩ = caller := fun status hstatus =>
    if_neg hstatus
  refine withConnection_sends (fun status hstatus => ?_) ?_
  · rw [hfailed status hstatus]
    exact hrests
  refine .call ⟨trivial, hrests.2⟩ fun r => ?_
  cases r with
  | ok members =>
    obtain ⟨rfl, hidle⟩ := hrests
    exact .pure ⟨rfl, hidle⟩
  | error errno =>
    refine fault_sends fun status hstatus => ?_
    rw [hfailed status (by rcases hstatus with rfl | rfl <;> nofun)]
    exact ⟨hrests.1, hrests.lost⟩

/-- Every call of the service goes on from where it rests. -/
theorem onGroupRepository_sends {γ : Type} {op : Call γ} (hrests : s.Rests caller)
    (hmakes : caller.Makes op) :
    (onGroupRepository γ op).Obeys GroupSeen.see GroupSeen.Sends
      (fun r s' => s'.Rests (caller.note ⟨op, r⟩)) s := by
  cases op with
  | createGroup g members =>
    refine inService_obeys (withConnection_sends (fun _ _ => hrests) (.lift ?_))
    exact createGroup_sends hmakes hrests
  | findGroup groupId => exact inService_obeys (findGroup_sends groupId hrests)
  | addMember member => exact inService_obeys (addMember_sends hmakes hrests)
  | listMembers groupId => exact inService_obeys (listMembers_sends groupId hrests)
  | createMessage message =>
    refine inService_obeys (withConnection_sends (fun _ _ => hrests) (.lift ?_))
    exact createMessage_sends message hrests
  | getSession conn => exact .perform trivial fun r =>
    ⟨congrArg (GroupCaller.note · ⟨.getSession conn, r⟩) hrests.1, hrests.2⟩
  | findById userId | now | getRandom count | nextRandom | nextGroupMessageSeq
  | getConnectionId userId => exact .perform trivial fun _ => hrests
  | _ => exact hmakes.elim

/-- Every statement of a call is one it may send, and no transaction is open at its
end. -/
theorem groupProgram_obeys (w : Wiring) (request : GroupRequest) :
    ((request.action w).handle onGroupRepository).Obeys GroupSeen.see GroupSeen.Sends
      (fun _ s => s.progress = .idle) { caller := { request } } := by
  refine ((GroupService.groupAction_obeys w request).simulate (R := GroupSeen.Rests)
    (fun _ _ _ _ hrests hmakes => onGroupRepository_sends hrests hmakes) ⟨rfl, rfl⟩).mono ?_
  rintro code s ⟨caller, hrests, -⟩
  exact hrests.2

end

/-! ## All calls together -/

/-- What the environment decides about a call: the answers of the interfaces that are
no repositories of groups and messages, and what becomes of a statement. -/
structure GroupEnv where
  session : Option ConnectionSession := none
  user : FindUserResult := { status := .notFound }
  time : Timestamp := 0
  random : Option Bytes := none
  number : Nat := 0
  connection : Option ConnId := none
  sql : GroupChoice := {}

/-- Carry out a call of session `i`. -/
def GroupEnv.exec (coll : Collation) (env : GroupEnv) (i : Nat) (d : GroupDb) :
    ∀ {γ : Type}, GroupOp γ → Option (γ × GroupDb)
  | _, .inl (.getSession _) => some (env.session, d)
  | _, .inl (.findById _) => some (env.user, d)
  | _, .inl .now => some (env.time, d)
  | _, .inl (.getRandom _) => some (env.random, d)
  | _, .inl .nextRandom => some (env.number, d)
  | _, .inl .nextGroupMessageSeq => some (env.number, d)
  | _, .inl (.getConnectionId _) => some (env.connection, d)
  -- the functions modelled here call nothing else
  | _, .inl _ => none
  | _, .inr sql => d.exec coll env.sql i sql

/-- Calls of any number of connections, on tables that are empty at first. -/
def groupCalls (coll : Collation) (w : Wiring) :
    Threads GroupOp JsonException ErrorCode GroupDb GroupSeen GroupRequest GroupEnv where
  Init d := d = { committed := {} }
  program request := (request.action w).handle onGroupRepository
  start request := { caller := { request } }
  see := GroupSeen.see
  exec env i d _ op := env.exec coll i d op

/-! ### Where members come from -/

namespace GroupCaller

/-- The members a call was shown are there. -/
def Listed (coll : Collation) (t : GroupTables) (s : GroupCaller) : Prop :=
  ∀ m ∈ s.listed.2, coll m.groupId = coll s.listed.1 ∧
    ∃ row ∈ t.groupMembers, row.toGroupMemberRecord = m

/-- A first member of a group: the group was not there, the call creates it, and the
member is its user or one the request names. -/
def Founded (coll : Collation) (before : GroupTables) (row : GroupMemberRow) (s : GroupCaller) :
    Prop :=
  ∃ conn req user, s.request = .create conn req ∧ s.user = some user ∧
    (row.userId = user ∨ row.userId ∈ req.memberIds) ∧ before.groupsWith coll row.groupId = []

/-- A member that the request names, while the user of the call is a member of the
group who may manage members. -/
def Added (coll : Collation) (before : GroupTables) (row : GroupMemberRow) (s : GroupCaller) :
    Prop :=
  ∃ conn req user, s.request = .add conn req ∧ s.user = some user ∧
    row.toGroupMemberRecord = ⟨req.groupId, req.userId, str "member"⟩ ∧
    ∃ actor ∈ before.groupMembers, coll actor.groupId = coll row.groupId ∧
      actor.userId = user ∧ GroupService.roleCanManageMembers actor.role = true

/-- Answers change neither the request nor a session that is known. -/
theorem note_same (s : GroupCaller) (e : Event Call) :
    (s.note e).request = s.request ∧ ∀ session, s.session = some session →
      (s.note e).session = some session := by
  unfold note
  split
  · split
    · refine ⟨rfl, fun session h => ?_⟩
      show s.session.or _ = _
      rw [h]
      rfl
    · exact ⟨rfl, fun _ h => h⟩
  · split
    · exact ⟨rfl, fun _ h => h⟩
    · exact ⟨rfl, fun _ h => h⟩
  · exact ⟨rfl, fun _ h => h⟩

theorem list_same (s : GroupCaller) (e : Event GroupSql) :
    (s.list e).request = s.request ∧ (s.list e).session = s.session := by
  unfold list
  split
  · exact ⟨rfl, rfl⟩
  · exact ⟨rfl, rfl⟩

theorem user_of_session {s s' : GroupCaller} {user : UserId} (h : s.user = some user)
    (hsession : ∀ session, s.session = some session → s'.session = some session) :
    s'.user = some user := by
  unfold GroupCaller.user at h ⊢
  cases hs : s.session with
  | none =>
    rw [hs] at h
    cases h
  | some session =>
    rw [hs] at h
    rw [hsession session hs]
    exact h

theorem Listed.mono {coll : Collation} {t t' : GroupTables} {s : GroupCaller} (h : s.Listed coll t)
    (hkept : ∀ row ∈ t.groupMembers, row ∈ t'.groupMembers) : s.Listed coll t' := by
  intro m hm
  obtain ⟨hgroup, row, hrow, hsame⟩ := h m hm
  exact ⟨hgroup, row, hkept row hrow, hsame⟩

end GroupCaller

namespace GroupSeen

/-- How a call accounts for a committed write. -/
structure Justifies (coll : Collation) (s : GroupSeen) (e : Committed GroupTables GroupWrite) :
    Prop where
  member : ∀ row, e.write = .insertGroupMember row →
    s.caller.Founded coll e.before row ∨ s.caller.Added coll e.before row
  committing : s.caller.request.isCreate = true → s.committing = true

/-- What a call does not forget. -/
structure Continues (s s' : GroupSeen) : Prop where
  request : s'.caller.request = s.caller.request
  user : ∀ user, s.caller.user = some user → s'.caller.user = some user
  committing : s.committing = true → s'.committing = true

theorem see_continues (s : GroupSeen) (e : Event GroupOp) : s.Continues (s.see e) := by
  obtain ⟨op, r⟩ := e
  cases op with
  | inr sql =>
    have hlist := s.caller.list_same ⟨sql, r⟩
    refine ⟨hlist.1, fun user h => ?_, fun h => ?_⟩
    · exact GroupCaller.user_of_session h fun _ hsession => hlist.2.trans hsession
    · show (if isCommit sql then true else s.committing) = true
      rw [h, ite_self]
  | inl op =>
    obtain ⟨hrequest, hsession⟩ := s.caller.note_same ⟨op, r⟩
    exact ⟨hrequest, fun user h => GroupCaller.user_of_session h hsession, id⟩

variable {coll : Collation} {s s' : GroupSeen} {e : Committed GroupTables GroupWrite}

theorem Justifies.continue (h : s.Justifies coll e) (hs : s.Continues s') :
    s'.Justifies coll e := by
  refine ⟨fun row hrow => ?_, fun hcreate => hs.committing (h.committing (hs.request ▸ hcreate))⟩
  rcases h.member row hrow with ⟨conn, req, user, hrequest, huser, hrest⟩ |
    ⟨conn, req, user, hrequest, huser, hrest⟩
  · exact .inl ⟨conn, req, user, hs.request.trans hrequest, hs.user user huser, hrest⟩
  · exact .inr ⟨conn, req, user, hs.request.trans hrequest, hs.user user huser, hrest⟩

/-- What holds for a call: its transaction is as far as the call is, the members it was
shown are there, and it accounts for what it has committed. -/
structure Relies (coll : Collation) (d : GroupDb) (i : Nat) (s : GroupSeen) : Prop where
  fits : Fits coll d i s.progress
  listed : s.caller.Listed coll d.committed
  justified : ∀ e ∈ d.history, e.session = i → s.Justifies coll e

end GroupSeen

/-! ### What a call does -/

section

variable {coll : Collation} {w : Wiring} {d d' : GroupDb} {i j : Nat} {s : GroupSeen}

variable {γ : Type} {op : GroupSql γ} {answer : γ}

/-- No commit changes or removes a member. -/
theorem members_kept {p : GroupProgress} {ws : List GroupWrite}
    (hmoves : Database.Moves (groupStore coll) d d' i ws)
    (hcommits : ∀ write ∈ ws, p.Commits coll d.committed op write) :
    ∀ row ∈ d.committed.groupMembers, row ∈ d'.committed.groupMembers := by
  intro row hrow
  rw [hmoves.committed, groupMembers_applyAll]
  · exact List.mem_append_left _ hrow
  · rintro write hwrite groupId userId role rfl
    have h := hcommits _ hwrite
    cases op with
    | insertGroupMember member =>
      obtain ⟨now, h⟩ := h
      cases h
    | sql op =>
      cases op with
      | query command =>
        cases command with
        | commit => exact h
        | _ => exact h
      | _ => exact h
    | _ => exact h

/-- The members a statement shows are there; those seen before still are. -/
theorem listed_step {choice : GroupChoice} (hinv : GroupInv coll d)
    (hfits : Fits coll d i s.progress) (hlisted : s.caller.Listed coll d.committed)
    (hsends : s.Sends (.inr op)) (hexec : d.exec coll choice i op = some (answer, d'))
    (hkept : ∀ row ∈ d.committed.groupMembers, row ∈ d'.committed.groupMembers) :
    (s.caller.list ⟨op, answer⟩).Listed coll d'.committed := by
  have hold := hlisted.mono hkept
  cases op with
  | selectMembers groupId =>
    rcases read_step hinv hfits hexec with ⟨⟨members, rfl, hread⟩, -⟩ | ⟨⟨errno, rfl⟩, -⟩
    · intro m hm
      have hidle := hfits
      rw [show s.progress = .idle from hsends.2] at hidle
      rw [Database.overlay_of_none hidle] at hread
      obtain ⟨hgroup, row, hrow, hsame⟩ := GroupTables.mem_of_selectMembers hread hm
      exact ⟨hgroup, row, hkept row hrow, hsame⟩
    · exact hold
  | _ => exact hold

/-- The writes a statement commits are ones the call accounts for. -/
theorem commits_justified {write : GroupWrite} (hlisted : s.caller.Listed coll d.committed)
    (hsends : s.Sends (.inr op)) (hcommits : s.progress.Commits coll d.committed op write) :
    (s.see ⟨.inr op, answer⟩).Justifies coll ⟨i, d.committed, write⟩ := by
  have hmember : ∀ row, write = .insertGroupMember row →
      s.caller.Founded coll d.committed row ∨ s.caller.Added coll d.committed row := by
    rintro row rfl
    cases op with
    | insertGroupMember member =>
      obtain ⟨now, hrow⟩ := hcommits
      obtain rfl := GroupWrite.insertGroupMember.inj hrow
      obtain ⟨conn, req, user, actor, hrequest, rfl, huser, hgroup, hactor, hself, hrole⟩ :=
        hsends.2
      obtain ⟨hkey, row, hrow, rfl⟩ := hlisted actor hactor
      rw [hgroup] at hkey
      exact .inr ⟨conn, req, user, hrequest, huser, rfl, row, hrow, hkey, hself, hrole⟩
    | sql op =>
      cases op with
      | query command =>
        cases command with
        | commit =>
          obtain ⟨g, members, hprogress, hrow, hnew⟩ := hcommits
          have hfounds := hsends.2 g members hprogress
          have hgroup : row.groupId = g.id := hfounds.groupId hrow
          obtain ⟨conn, req, ids, hrequest, huser, -, -, hids, rfl⟩ := hfounds
          obtain ⟨id, hid, hsame⟩ := List.mem_map.mp hrow
          have hself : row.userId = id := (congrArg GroupMemberRecord.userId hsame).symm
          exact .inl ⟨conn, req, g.ownerId, hrequest, huser, hself ▸ hids id hid,
            hgroup ▸ hnew⟩
        | _ => exact hcommits.elim
      | _ => exact hcommits.elim
    | _ => exact hcommits.elim
  have hcommitting : s.caller.request.isCreate = true →
      (s.see ⟨.inr op, answer⟩).committing = true := by
    intro hcreate
    cases op with
    | insertGroupMember member =>
      obtain ⟨conn, req, user, actor, hrequest, -⟩ := hsends.2
      rw [hrequest] at hcreate
      cases hcreate
    | sql op =>
      cases op with
      | query command =>
        cases command with
        | commit => rfl
        | _ => exact hcommits.elim
      | _ => exact hcommits.elim
    | _ => exact hcommits.elim
  have hcontinues := s.see_continues ⟨.inr op, answer⟩
  exact GroupSeen.Justifies.continue
    (s := { s with committing := (s.see ⟨.inr op, answer⟩).committing }) ⟨hmember, hcommitting⟩
    ⟨hcontinues.request, hcontinues.user, id⟩

/-- What holds of the database when `n` calls have begun. -/
structure GroupState (coll : Collation) (d : GroupDb) (n : Nat) : Prop where
  inv : GroupInv coll d
  /-- the tables hold what was committed and nothing else -/
  replayed : d.committed = (groupStore coll).applyAll {} (d.history.map (·.write))
  unused : ∀ j, n ≤ j → d.txn j = none
  sessions : ∀ e ∈ d.history, e.session < n

/-- What a call does: what it commits, and that all still holds. -/
structure CallStep (coll : Collation) (d d' : GroupDb) (i : Nat) (s' : GroupSeen)
    (ws : List GroupWrite) : Prop where
  moves : Database.Moves (groupStore coll) d d' i ws
  inv : GroupInv coll d'
  relies : s'.Relies coll d' i
  kept : ∀ row ∈ d.committed.groupMembers, row ∈ d'.committed.groupMembers

theorem call_step {env : GroupEnv} {op : GroupOp γ} (hinv : GroupInv coll d)
    (h : s.Relies coll d i) (hsends : s.Sends op)
    (hexec : env.exec coll i d op = some (answer, d')) :
    ∃ ws, CallStep coll d d' i (s.see ⟨op, answer⟩) ws := by
  have hold : ∀ e ∈ d.history, e.session = i → (s.see ⟨op, answer⟩).Justifies coll e :=
    fun e he hi => (h.justified e he hi).continue (s.see_continues _)
  cases op with
  | inr sql =>
    obtain ⟨ws, hstep, hcommits⟩ := hinv.exec_step h.fits hsends.1 hexec
    have hkept := members_kept hstep.moves hcommits
    refine ⟨ws, hstep.moves, hstep.inv,
      ⟨hstep.fits, listed_step hinv h.fits h.listed hsends hexec hkept, fun e he hi => ?_⟩, hkept⟩
    rw [hstep.moves.history] at he
    rcases List.mem_append.mp he with he | he
    · exact hold e he hi
    · obtain ⟨write, hwrite, rfl⟩ := List.mem_map.mp he
      exact commits_justified h.listed hsends (hcommits write hwrite)
  | inl op =>
    have hnothing : ∀ {r : γ}, some (r, d) = some (answer, d') →
        (s.caller.note ⟨op, answer⟩).listed = s.caller.listed →
          ∃ ws, CallStep coll d d' i (s.see ⟨.inl op, answer⟩) ws := by
      intro r hsame hlisted
      obtain ⟨-, rfl⟩ := Prod.mk.inj (Option.some.inj hsame)
      refine ⟨[], .refl d i, hinv, ⟨h.fits, ?_, hold⟩, fun _ hrow => hrow⟩
      show ∀ m ∈ (s.caller.note ⟨op, answer⟩).listed.2,
        coll m.groupId = coll (s.caller.note ⟨op, answer⟩).listed.1 ∧ _
      rw [hlisted]
      exact h.listed
    cases op with
    | getSession conn =>
      refine hnothing hexec ?_
      unfold GroupCaller.note
      dsimp only
      split <;> rfl
    | findById userId | now | getRandom count | nextRandom | nextGroupMessageSeq
    | getConnectionId userId => exact hnothing hexec rfl
    | _ => cases hexec

/-- What every call keeps. -/
theorem groupCalls_upholds (coll : Collation) (w : Wiring) :
    (groupCalls coll w).Upholds GroupSeen.Sends (fun _ s => s.progress = .idle) (GroupState coll)
      (GroupSeen.Relies coll) where
  init d hd := by
    obtain rfl : d = { committed := {} } := hd
    exact ⟨.empty coll, rfl, fun _ _ => rfl, fun e he => absurd he List.not_mem_nil⟩
  obeys request := groupProgram_obeys w request
  start d n request h := by
    refine ⟨⟨h.inv, h.replayed, fun j hj => h.unused j (by omega), fun e he => ?_⟩,
      h.unused n (le_refl n), fun m hm => absurd hm List.not_mem_nil, fun e he hi => ?_⟩
    · exact (h.sessions e he).trans (Nat.lt_succ_self n)
    · exact absurd hi (h.sessions e he).ne
  call hlt h hrelies hsends hexec := by
    obtain ⟨ws, hstep⟩ := call_step h.inv hrelies hsends hexec
    refine ⟨⟨hstep.inv, ?_, fun j hj => ?_, fun e he => ?_⟩, hstep.relies⟩
    · rw [hstep.moves.committed, hstep.moves.history, List.map_append, List.map_map,
        Store.applyAll_append, ← h.replayed]
      exact congrArg _ (List.map_id _).symm
    · exact (hstep.moves.others j (by omega)).trans (h.unused j hj)
    · rw [hstep.moves.history] at he
      rcases List.mem_append.mp he with he | he
      · exact h.sessions e he
      · obtain ⟨write, -, rfl⟩ := List.mem_map.mp he
        exact hlt
  stable h hrelies hsends hexec hne hj := by
    obtain ⟨ws, hstep⟩ := call_step h.inv hrelies hsends hexec
    refine ⟨hj.fits.stable h.inv hstep.moves hstep.inv hne, hj.listed.mono hstep.kept,
      fun e he hsession => ?_⟩
    rw [hstep.moves.history] at he
    rcases List.mem_append.mp he with he | he
    · exact hj.justified e he hsession
    · obtain ⟨write, -, rfl⟩ := List.mem_map.mp he
      exact absurd hsession.symm hne

/-! ### The groups in every reachable state -/

/-- In every state that the calls reach from empty tables, every group has one
conversation, which is of type group, one member with role `owner`, who is its owner,
and no member twice. Every member was inserted by a call: one that created the group,
for the user of its connection or a user the request names, or one whose connection
was authenticated as an owner or admin of the group. The tables hold what the calls
have committed and nothing else, and a `createGroup` that has not sent `COMMIT` has
committed nothing; when it has ended, its transaction is gone. -/
theorem group_membership {s : Shared GroupOp JsonException ErrorCode GroupDb GroupSeen}
    (hs : (groupCalls coll w).lts.Reachable s) :
    (∀ g ∈ s.state.committed.groups,
      (s.state.committed.conversationsWith coll g.conversationId).map (·.type) = [.group] ∧
        WellStaffed g ((s.state.committed.membersOf coll g.id).map (·.toGroupMemberRecord))) ∧
      (∀ row ∈ s.state.committed.groupMembers, ∃ e ∈ s.state.history, ∃ th,
        e.write = .insertGroupMember row ∧ s.threads[e.session]? = some th ∧
          (th.seen.caller.Founded coll e.before row ∨ th.seen.caller.Added coll e.before row)) ∧
      s.state.committed = (groupStore coll).applyAll {} (s.state.history.map (·.write)) ∧
      ∀ (i : Nat) th, s.threads[i]? = some th → th.seen.caller.request.isCreate = true →
        th.seen.committing = false → (∀ e ∈ s.state.history, e.session ≠ i) ∧
          ∀ code, th.rest = .pure code → s.state.txn i = none := by
  have hheld := (groupCalls_upholds coll w).invariant hs
  have hsettled := hheld.state.inv.settled
  refine ⟨fun g hg => ⟨?_, ?_⟩, fun row hrow => ?_, hheld.state.replayed,
    fun i th hth hcreate hopen => ⟨fun e he hi => ?_, fun code hcode => ?_⟩⟩
  · refine hsettled (.table (.conversation (coll g.conversationId))) fun hnil => ?_
    exact List.filter_eq_nil_iff.mp hnil g hg (decide_eq_true rfl)
  · have hmem : g ∈ s.state.committed.groupsWith coll g.id :=
      List.mem_filter.mpr ⟨hg, decide_eq_true rfl⟩
    rcases hsettled (.group (coll g.id)) with ⟨hnil, -⟩ | ⟨g', hgroups, hstaffed⟩
    · rw [show s.state.committed.groupsWith coll g.id = [] from hnil] at hmem
      cases hmem
    · rw [show s.state.committed.groupsWith coll g.id = [g'] from hgroups] at hmem
      obtain rfl := List.mem_singleton.mp hmem
      exact hstaffed
  · obtain ⟨e, he, hwrite⟩ := hheld.state.inv.written row hrow
    have hlt := hheld.state.sessions e he
    have hth := List.getElem?_eq_getElem hlt
    exact ⟨e, he, _, hwrite, hth, ((hheld.seen _ _ hth).justified e he rfl).member row hwrite⟩
  · have hcommitting := ((hheld.seen i th hth).justified e he hi).committing hcreate
    rw [hopen] at hcommitting
    cases hcommitting
  · have hidle : th.seen.progress = .idle := by
      have hrest := hheld.rest i th hth
      rw [hcode] at hrest
      exact hrest
    have hfits := (hheld.seen i th hth).fits
    rwa [hidle] at hfits

/-! ### A run -/

def groupSession (userId : UserId) : GroupEnv :=
  { session := some { authenticated := true, userId } }

def memberFound (userId : UserId) : GroupEnv :=
  { user := { status := .ok, user := some ⟨userId, [], [], []⟩ } }

/-- User 1 creates a group with user 2 and adds user 3. In between, a `createGroup` of
user 2 loses its connection before the group is inserted. -/
def teamCalls : List (ThreadLabel GroupRequest GroupEnv) :=
  [.start (.create 7 ⟨str "team", [2]⟩), .call 0 (groupSession 1), .call 0 (memberFound 1),
    .call 0 (memberFound 2), .call 0 { random := some [1] }, .call 0 {}, .call 0 {}, .call 0 {},
    .start (.create 8 ⟨str "crew", []⟩), .call 1 (groupSession 2), .call 1 (memberFound 2),
    .call 1 { random := some [2] }, .call 1 {}, .call 1 {}, .call 1 {}, .call 0 {}, .call 0 {},
    .call 1 { sql := { fate := .aborted 2013 } }, .call 0 {}, .call 1 {}, .call 1 {}, .call 0 {},
    .start (.add 7 ⟨str "grp_01", 3⟩), .call 2 (groupSession 1), .call 2 (memberFound 3),
    .call 2 {}, .call 2 {}, .call 2 {}, .call 2 {}, .call 2 {}, .call 2 {}]

theorem group_membership_team :
    ∃ s, (groupCalls id bareWiring).lts.Reachable s ∧
      s.state.committed.groupMembers.map (·.userId) = [1, 2, 3] ∧
      (∀ g ∈ s.state.committed.groups,
        WellStaffed g ((s.state.committed.membersOf id g.id).map (·.toGroupMemberRecord))) ∧
      ∀ e ∈ s.state.history, e.session ≠ 1 := by
  obtain ⟨s, hs, htest⟩ := Lts.exists_reach_of_run (M := (groupCalls id bareWiring).lts)
    (s := ⟨{ committed := {} }, []⟩)
    (fun s => s.state.committed.groupMembers.map (·.userId) = [1, 2, 3] ∧
      (s.threads[1]?).map (fun th => (th.seen.caller.request.isCreate, th.seen.committing)) =
        some (true, false))
    teamCalls ⟨rfl, rfl⟩ Lts.runOk_true (by decide +kernel)
  obtain ⟨hmembers, hcreate⟩ := of_decide_eq_true htest
  obtain ⟨th, hth, hseen⟩ := Option.map_eq_some_iff.mp hcreate
  obtain ⟨hisCreate, hopen⟩ := Prod.mk.inj hseen
  obtain ⟨hgroups, -, -, hfailed⟩ := group_membership hs
  exact ⟨s, hs, hmembers, fun g hg => (hgroups g hg).2, (hfailed 1 th hth hisCreate hopen).1⟩

end

end ChatServer.Service
