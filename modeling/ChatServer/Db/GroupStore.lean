import ChatServer.Base.Database
import ChatServer.Db.FriendRepository
import Mathlib.Data.List.Sort

/-!
# The group tables, statement by statement

`groups` and `group_members` beside the message tables, the statements of
`GroupRepository` and of `MessageRepository::createMessage` on them, and the locks
InnoDB takes. The foreign keys to `users` are left to refusals: any statement may be
refused with any error number.

* `Settled` — what a lock shows of a consistent table: a conversation with a group is
  of type `group`, and a group has its owner as its only owner and no user twice;
* `GroupProgress`, `Working` — how far the transaction of a `createGroup` has come,
  and what its session sees then;
* `working_update`, `Working.settled` — every statement keeps it, and a group with all
  its members is settled again.
-/

namespace ChatServer.Db

open Base

/-! ## Tables -/

/-- A row of `group_members`. -/
structure GroupMemberRow extends GroupMemberRecord where
  joinedAt : Timestamp
  deriving DecidableEq, Repr

/-- The message tables with `groups` and `group_members`. -/
structure GroupTables extends Tables where
  groups : List GroupRecord := []
  groupMembers : List GroupMemberRow := []
  deriving DecidableEq, Repr

inductive GroupWrite where
  | table (write : Write)
  | insertGroup (row : GroupRecord)
  | insertGroupMember (row : GroupMemberRow)
  /-- `ON DUPLICATE KEY UPDATE role=VALUES(role)` -/
  | setRole (groupId : Bytes) (userId : UserId) (role : Bytes)
  deriving DecidableEq, Repr

/-- Rows and unique-key entries, by collation key. -/
inductive GroupLock where
  | table (lock : Lock)
  | group (id : Bytes)
  | groupConversation (conversationId : Bytes)
  | groupMember (groupId : Bytes) (userId : UserId)
  deriving DecidableEq, Repr

/-- What a lock shows: the types of the conversations and the groups and members that
go with it. -/
structure GroupView where
  types : List ConversationType := []
  groups : List GroupRecord := []
  members : List GroupMemberRecord := []
  deriving DecidableEq, Repr

section

variable (coll : Collation)

/-- The groups `WHERE id=?` selects. -/
def GroupTables.groupsWith (t : GroupTables) (id : Bytes) : List GroupRecord :=
  t.groups.filter fun g => coll g.id = coll id

/-- The members `WHERE group_id=?` selects. -/
def GroupTables.membersOf (t : GroupTables) (id : Bytes) : List GroupMemberRow :=
  t.groupMembers.filter fun m => coll m.groupId = coll id

/-- Carry out one write. -/
def GroupTables.apply (t : GroupTables) : GroupWrite → GroupTables
  | .table w => { t with toTables := t.toTables.apply coll w }
  | .insertGroup row => { t with groups := t.groups ++ [row] }
  | .insertGroupMember row => { t with groupMembers := t.groupMembers ++ [row] }
  | .setRole groupId userId role =>
    { t with
      groupMembers := t.groupMembers.map fun m =>
        if coll m.groupId = coll groupId ∧ m.userId = userId then { m with role } else m }

/-- The locks under which a write is made; a row that refers to another locks that
one too. -/
def GroupWrite.touches : GroupWrite → List GroupLock
  | .table w => (w.touches coll).map .table
  | .insertGroup row =>
    [.group (coll row.id), .groupConversation (coll row.conversationId),
      .table (.conversation (coll row.conversationId))]
  | .insertGroupMember row =>
    [.groupMember (coll row.groupId) row.userId, .group (coll row.groupId)]
  | .setRole groupId userId _ => [.groupMember (coll groupId) userId, .group (coll groupId)]

def GroupTables.view (t : GroupTables) : GroupLock → GroupView
  | .table (.conversation k) =>
    { types := (t.conversations.filter fun c => coll c.id = k).map (·.type)
      groups := t.groups.filter fun g => coll g.conversationId = k }
  | .group k =>
    { groups := t.groups.filter fun g => coll g.id = k
      members := (t.groupMembers.filter fun m => coll m.groupId = k).map
        (·.toGroupMemberRecord) }
  | _ => {}

/-- What a write does to a view. -/
def GroupWrite.onView : GroupWrite → GroupLock → GroupView → GroupView
  | .table (.insertConversation row), .table (.conversation k), v =>
    if coll row.id = k then { v with types := v.types ++ [row.type] } else v
  | .insertGroup row, .table (.conversation k), v =>
    if coll row.conversationId = k then { v with groups := v.groups ++ [row] } else v
  | .insertGroup row, .group k, v =>
    if coll row.id = k then { v with groups := v.groups ++ [row] } else v
  | .insertGroupMember row, .group k, v =>
    if coll row.groupId = k then
      { v with members := v.members ++ [row.toGroupMemberRecord] }
    else v
  | .setRole groupId userId role, .group k, v =>
    if coll groupId = k then
      { v with
        members := v.members.map fun m => if m.userId = userId then { m with role } else m }
    else v
  | _, _, v => v

end

variable {coll : Collation}

/-! ## Writes seen through the locks -/

/-- A sequence number shows nothing of the types. -/
theorem view_setLastSeq_types (t : GroupTables) (id : Bytes) (n : Int) (k : Bytes) :
    (((t.conversations.map fun r => if coll r.id = coll id then { r with lastSeq := n } else r).filter
        fun c => coll c.id = k).map (·.type)) =
      (t.conversations.filter fun c => coll c.id = k).map (·.type) := by
  rw [List.filter_map, List.map_map]
  have hkeep : ((fun c : Conversation => decide (coll c.id = k)) ∘
      fun r => if coll r.id = coll id then { r with lastSeq := n } else r) =
      fun c => decide (coll c.id = k) := by
    funext r
    show decide (coll (if coll r.id = coll id then { r with lastSeq := n } else r).id = k) = _
    split <;> rfl
  rw [hkeep]
  refine List.map_congr_left fun r _ => ?_
  show (if coll r.id = coll id then { r with lastSeq := n } else r).type = r.type
  split <;> rfl

theorem GroupTables.view_table (t : GroupTables) (w : Write) (k : GroupLock) :
    (t.apply coll (.table w)).view coll k = (GroupWrite.table w).onView coll k (t.view coll k) := by
  cases k with
  | table lock =>
    cases lock with
    | conversation k =>
      cases w with
      | insertConversation row =>
        by_cases h : coll row.id = k <;>
          simp [GroupTables.view, GroupTables.apply, Tables.apply, GroupWrite.onView, h]
      | setLastSeq id n =>
        exact congrArg (fun types => ({ types, groups := _ } : GroupView))
          (view_setLastSeq_types t id n k)
      | insertMember row => rfl
      | insertMessage row => rfl
      | setStatus id status deliveredAt readAt => rfl
    | _ => cases w <;> rfl
  | group k => cases w <;> rfl
  | _ => cases w <;> rfl

theorem GroupTables.view_setRole (t : GroupTables) (groupId : Bytes) (userId : UserId)
    (role k : Bytes) :
    (t.apply coll (.setRole groupId userId role)).view coll (.group k) =
      (GroupWrite.setRole groupId userId role).onView coll (.group k) (t.view coll (.group k)) := by
  have hkeep : ((fun m : GroupMemberRow => decide (coll m.groupId = k)) ∘ fun m =>
      if coll m.groupId = coll groupId ∧ m.userId = userId then { m with role } else m) =
      fun m => decide (coll m.groupId = k) := by
    funext m
    show decide (coll (if coll m.groupId = coll groupId ∧ m.userId = userId then
      { m with role } else m).groupId = k) = _
    split <;> rfl
  simp only [GroupTables.view, GroupTables.apply, GroupWrite.onView]
  rw [List.filter_map, hkeep, List.map_map]
  split
  next hk =>
    congr 1
    rw [List.map_map]
    refine List.map_congr_left fun m hm => ?_
    have hgroup : coll m.groupId = coll groupId :=
      (of_decide_eq_true (List.mem_filter.mp hm).2).trans hk.symm
    simp only [Function.comp, hgroup, true_and]
    split <;> rfl
  next hk =>
    congr 1
    refine List.map_congr_left fun m hm => ?_
    have hgroup : coll m.groupId ≠ coll groupId := fun h =>
      hk (h.symm.trans (of_decide_eq_true (List.mem_filter.mp hm).2))
    simp [Function.comp, hgroup]

theorem GroupTables.view_apply (t : GroupTables) (w : GroupWrite) (k : GroupLock) :
    (t.apply coll w).view coll k = w.onView coll k (t.view coll k) := by
  cases w with
  | table w => exact t.view_table w k
  | insertGroup row =>
    cases k with
    | table lock =>
      cases lock with
      | conversation k =>
        by_cases h : coll row.conversationId = k <;>
          simp [GroupTables.view, GroupTables.apply, GroupWrite.onView, h]
      | _ => rfl
    | group k =>
      by_cases h : coll row.id = k <;>
        simp [GroupTables.view, GroupTables.apply, GroupWrite.onView, h]
    | _ => rfl
  | insertGroupMember row =>
    cases k with
    | table lock => cases lock <;> rfl
    | group k =>
      by_cases h : coll row.groupId = k <;>
        simp [GroupTables.view, GroupTables.apply, GroupWrite.onView, h]
    | _ => rfl
  | setRole groupId userId role =>
    cases k with
    | table lock => cases lock <;> rfl
    | group k => exact t.view_setRole groupId userId role k
    | _ => rfl

theorem GroupWrite.onView_of_not_touched {w : GroupWrite} {k : GroupLock}
    (h : k ∉ w.touches coll) (v : GroupView) : w.onView coll k v = v := by
  cases w with
  | table w =>
    cases k with
    | table lock =>
      cases lock with
      | conversation k =>
        cases w with
        | insertConversation row =>
          refine if_neg fun he => h ?_
          simp [GroupWrite.touches, Write.touches, he]
        | _ => rfl
      | _ => cases w <;> rfl
    | _ => cases w <;> rfl
  | insertGroup row =>
    cases k with
    | table lock =>
      cases lock with
      | conversation k => exact if_neg fun he => h (by simp [GroupWrite.touches, he])
      | _ => rfl
    | group k => exact if_neg fun he => h (by simp [GroupWrite.touches, he])
    | _ => rfl
  | insertGroupMember row | setRole groupId userId role =>
    cases k with
    | table lock => cases lock <;> rfl
    | group k => exact if_neg fun he => h (by simp [GroupWrite.touches, he])
    | _ => rfl

/-- The tables as a store written under locks. -/
def groupStore (coll : Collation) : Store GroupTables GroupWrite GroupLock GroupView where
  apply := GroupTables.apply coll
  view k t := t.view coll k
  touches := GroupWrite.touches coll
  frame t h := by
    rw [GroupTables.view_apply, GroupWrite.onView_of_not_touched h]
  congr w h := by
    rw [GroupTables.view_apply, GroupTables.view_apply, h]

/-! ## Statements -/

section

variable (coll : Collation)

/-- Writes, under the locks they touch. -/
def making (ws : List GroupWrite) : Granted GroupWrite GroupLock :=
  ⟨ws.flatMap (GroupWrite.touches coll), ws⟩

/-- A statement of `createMessage`, with the number of rows it inserts. -/
def Grant.counted (g : Grant) : Nat × Granted GroupWrite GroupLock :=
  (g.writes.length, ⟨g.locks.map .table, g.writes.map .table⟩)

namespace GroupTables

open FriendStore (noReferencedRowError)

variable (t : GroupTables)

/-- The statements of `ExecuteUpdate`: affected rows, locks and writes, or the error
number of the constraint that is violated. -/
def update (now : Timestamp) :
    SqlUpdate → Except Nat (Nat × Granted GroupWrite GroupLock)
  | .insertConversation id type singleChatKey =>
    if t.conversations.any fun r => coll r.id = coll id ∨
        singleChatKey.any fun k => r.singleChatKey.map coll = some (coll k) then
      .error duplicateEntryError
    else .ok (1, making coll [.table (.insertConversation ⟨id, type, singleChatKey, 0⟩)])
  | .upsertConversation id singleChatKey =>
    .ok (upsertConversation coll t.toTables id singleChatKey).counted
  | .insertConversationMember id user =>
    if t.conversationsWith coll id = [] then .error noReferencedRowError
    else if t.members.any fun m => coll m.conversationId = coll id ∧ m.userId = user then
      .error duplicateEntryError
    else .ok (1, making coll [.table (.insertMember ⟨id, user, str "member"⟩)])
  | .upsertConversationMember id user =>
    if t.conversationsWith coll id = [] then .error noReferencedRowError
    else .ok (upsertMember coll t.toTables id user).counted
  | .allocateSequence id =>
    match t.conversationsWith coll id with
    | [] => .ok (0, ⟨[], []⟩)
    | r :: _ => .ok (1, making coll [.table (.setLastSeq id (r.lastSeq + 1))])
  | .insertMessage m sequence =>
    if t.conversationsWith coll m.conversationId = [] then .error noReferencedRowError
    else if duplicateEntry coll t.toTables (insertedRow m sequence) then
      .error duplicateEntryError
    else .ok (1, making coll [.table (.insertMessage (insertedRow m sequence))])
  | .insertGroup g =>
    if t.groups.any fun r => coll r.id = coll g.id ∨ coll r.conversationId = coll g.conversationId
    then .error duplicateEntryError
    else if t.conversationsWith coll g.conversationId = [] then .error noReferencedRowError
    else .ok (1, making coll [.insertGroup g])
  | .upsertGroupMember m =>
    if t.groupsWith coll m.groupId = [] then .error noReferencedRowError
    else if (t.membersOf coll m.groupId).any (·.userId = m.userId) then
      .ok (2, making coll [.setRole m.groupId m.userId m.role])
    else .ok (1, making coll [.insertGroupMember ⟨m, now⟩])

/-- The `INSERT` of `addMember`. -/
def insertMember (now : Timestamp) (m : GroupMemberRecord) :
    Except Nat (Nat × Granted GroupWrite GroupLock) :=
  if (t.membersOf coll m.groupId).any (·.userId = m.userId) then .error duplicateEntryError
  else if t.groupsWith coll m.groupId = [] then .error noReferencedRowError
  else .ok (1, making coll [.insertGroupMember ⟨m, now⟩])

/-- The columns of `ReadGroup` with their buffers. -/
def groupColumns (g : GroupRecord) : List Bound :=
  [⟨g.id, 65⟩, ⟨g.name, 129⟩, ⟨g.conversationId, 65⟩]

/-- `SELECT … FROM groups WHERE id=? LIMIT 1`; a row that does not fit its buffers is
an error without a number. -/
def selectGroup (id : Bytes) : Except Nat (Option GroupRecord) :=
  match fetchAll groupColumns some ((t.groupsWith coll id).take 1) with
  | some rows => .ok rows.head?
  | none => .error 0

/-- The columns of `listMembers` with their buffers. -/
def memberColumns (m : GroupMemberRow) : List Bound := [⟨m.groupId, 65⟩, ⟨m.role, 21⟩]

/-- `SELECT … FROM group_members WHERE group_id=? ORDER BY joined_at ASC, user_id ASC`. -/
def selectMembers (id : Bytes) : Except Nat (List GroupMemberRecord) :=
  let rows := (t.membersOf coll id).insertionSort fun m n =>
    m.joinedAt < n.joinedAt ∨ (m.joinedAt = n.joinedAt ∧ m.userId ≤ n.userId)
  match fetchAll memberColumns (fun m => some m.toGroupMemberRecord) rows with
  | some members => .ok members
  | none => .error 0

theorem mem_of_selectMembers {t : GroupTables} {coll : Collation} {id : Bytes}
    {members : List GroupMemberRecord} (h : t.selectMembers coll id = .ok members)
    {m : GroupMemberRecord} (hm : m ∈ members) :
    coll m.groupId = coll id ∧ ∃ row ∈ t.groupMembers, row.toGroupMemberRecord = m := by
  unfold selectMembers at h
  dsimp only at h
  split at h
  next members' hfetch =>
    obtain rfl := Except.ok.inj h
    obtain ⟨row, hrow, hbuild⟩ := (mem_of_fetchAll hfetch).mp hm
    obtain rfl := Option.some.inj hbuild
    obtain ⟨hmem, hgroup⟩ := List.mem_filter.mp ((List.mem_insertionSort _).mp hrow)
    exact ⟨of_decide_eq_true hgroup, row, hmem, rfl⟩
  next => cases h

end GroupTables

end

theorem making_covered (ws : List GroupWrite) : (making coll ws).Covered (groupStore coll) :=
  fun w hw _ hk => List.mem_flatMap.mpr ⟨w, hw, hk⟩

theorem counted_covered {g : Grant} (h : ∀ w ∈ g.writes, ∀ k ∈ w.touches coll, k ∈ g.locks) :
    g.counted.2.Covered (groupStore coll) := by
  intro w hw k hk
  obtain ⟨v, hv, rfl⟩ := List.mem_map.mp hw
  obtain ⟨l, hl, rfl⟩ := List.mem_map.mp hk
  exact List.mem_map_of_mem (h v hv l hl)

/-- The write shows in no view. -/
def GroupWrite.quiet : GroupWrite → Bool
  | .table (.insertConversation _) => false
  | .table _ => true
  | _ => false

/-- What a statement writes, and when. -/
def GroupTables.Makes (coll : Collation) (t : GroupTables) (now : Timestamp) :
    SqlUpdate → List GroupWrite → Prop
  | .insertConversation id type singleChatKey, ws =>
    t.conversationsWith coll id = [] ∧
      ws = [.table (.insertConversation ⟨id, type, singleChatKey, 0⟩)]
  | .upsertConversation id singleChatKey, ws =>
    ws = [] ∨ t.conversationsWith coll id = [] ∧
      ws = [.table (.insertConversation ⟨id, .single, some singleChatKey, 0⟩)]
  | .insertGroup g, ws => t.groupsWith coll g.id = [] ∧ ws = [.insertGroup g]
  | .upsertGroupMember m, ws =>
    ((∃ row ∈ t.membersOf coll m.groupId, row.userId = m.userId) ∧
        ws = [.setRole m.groupId m.userId m.role]) ∨
      (∀ row ∈ t.membersOf coll m.groupId, row.userId ≠ m.userId) ∧
        ws = [.insertGroupMember ⟨m, now⟩]
  | _, ws => ∀ w ∈ ws, w.quiet = true

/-- The statements, and that their writes are under their locks. -/
theorem update_inv {t : GroupTables} {now : Timestamp} {statement : SqlUpdate} {n : Nat}
    {g : Granted GroupWrite GroupLock} (h : t.update coll now statement = .ok (n, g)) :
    g.Covered (groupStore coll) ∧ t.Makes coll now statement g.writes := by
  cases statement with
  | insertConversation id type key =>
    simp only [GroupTables.update] at h
    split at h
    next => cases h
    next hnew =>
      obtain rfl := congrArg Prod.snd (Except.ok.inj h)
      refine ⟨making_covered _, List.filter_eq_nil_iff.mpr fun r hr hid => hnew ?_, rfl⟩
      exact List.any_eq_true.mpr ⟨r, hr, decide_eq_true (.inl (of_decide_eq_true hid))⟩
  | upsertConversation id key =>
    obtain rfl := congrArg Prod.snd (Except.ok.inj h)
    rcases upsertConversation_cases coll t.toTables id key with ⟨hnil, -⟩ | ⟨hnone, heq⟩
    · refine ⟨counted_covered fun w hw => ?_, .inl ?_⟩
      · rw [hnil] at hw
        cases hw
      · show (upsertConversation coll t.toTables id key).writes.map GroupWrite.table = []
        rw [hnil]
        rfl
    · rw [heq]
      refine ⟨counted_covered fun w hw k hk => ?_, .inr ⟨hnone, rfl⟩⟩
      obtain rfl := List.mem_singleton.mp hw
      simpa [Write.touches] using hk
  | insertConversationMember id user | insertMessage m sequence =>
    simp only [GroupTables.update] at h
    split at h
    · cases h
    split at h
    · cases h
    · obtain rfl := congrArg Prod.snd (Except.ok.inj h)
      exact ⟨making_covered _, List.forall_mem_singleton.mpr rfl⟩
  | upsertConversationMember id user =>
    simp only [GroupTables.update] at h
    split at h
    · cases h
    obtain rfl := congrArg Prod.snd (Except.ok.inj h)
    unfold upsertMember
    split
    · exact ⟨fun w hw => absurd hw List.not_mem_nil, fun w hw => absurd hw List.not_mem_nil⟩
    · refine ⟨counted_covered fun w hw k hk => ?_, List.forall_mem_singleton.mpr rfl⟩
      obtain rfl := List.mem_singleton.mp hw
      exact hk
  | allocateSequence id =>
    simp only [GroupTables.update] at h
    split at h
    · obtain rfl := congrArg Prod.snd (Except.ok.inj h)
      exact ⟨fun w hw => absurd hw List.not_mem_nil, fun w hw => absurd hw List.not_mem_nil⟩
    · obtain rfl := congrArg Prod.snd (Except.ok.inj h)
      exact ⟨making_covered _, List.forall_mem_singleton.mpr rfl⟩
  | insertGroup g =>
    simp only [GroupTables.update] at h
    split at h
    next => cases h
    next hnew =>
      split at h
      · cases h
      · obtain rfl := congrArg Prod.snd (Except.ok.inj h)
        refine ⟨making_covered _, List.filter_eq_nil_iff.mpr fun r hr hid => hnew ?_, rfl⟩
        exact List.any_eq_true.mpr ⟨r, hr, decide_eq_true (.inl (of_decide_eq_true hid))⟩
  | upsertGroupMember m =>
    simp only [GroupTables.update] at h
    split at h
    next => cases h
    next =>
      split at h
      next hexists =>
        obtain rfl := congrArg Prod.snd (Except.ok.inj h)
        obtain ⟨row, hrow, huser⟩ := List.any_eq_true.mp hexists
        exact ⟨making_covered _, .inl ⟨⟨row, hrow, of_decide_eq_true huser⟩, rfl⟩⟩
      next hnone =>
        obtain rfl := congrArg Prod.snd (Except.ok.inj h)
        refine ⟨making_covered _, .inr ⟨fun row hrow huser => hnone ?_, rfl⟩⟩
        exact List.any_eq_true.mpr ⟨row, hrow, decide_eq_true huser⟩

/-- The `INSERT` of `addMember`. -/
theorem insertMember_inv {t : GroupTables} {now : Timestamp} {m : GroupMemberRecord} {n : Nat}
    {g : Granted GroupWrite GroupLock} (h : t.insertMember coll now m = .ok (n, g)) :
    g.Covered (groupStore coll) ∧ g.writes = [.insertGroupMember ⟨m, now⟩] ∧
      t.groupsWith coll m.groupId ≠ [] ∧
      ∀ row ∈ t.membersOf coll m.groupId, row.userId ≠ m.userId := by
  unfold GroupTables.insertMember at h
  split at h
  next => cases h
  next hnone =>
    split at h
    next => cases h
    next hgroup =>
      obtain rfl := congrArg Prod.snd (Except.ok.inj h)
      refine ⟨making_covered _, rfl, hgroup, fun row hrow huser => hnone ?_⟩
      exact List.any_eq_true.mpr ⟨row, hrow, decide_eq_true huser⟩

/-! ## Consistent tables -/

/-- The members of a group: one owner, who is the group's, and no user twice. -/
structure WellStaffed (g : GroupRecord) (members : List GroupMemberRecord) : Prop where
  owner : (members.filter (·.role = str "owner")).map (·.userId) = [g.ownerId]
  nodup : (members.map (·.userId)).Nodup

/-- What a lock shows of tables in order. -/
def Settled : GroupLock → GroupView → Prop
  | .table (.conversation _), v => v.groups ≠ [] → v.types = [.group]
  | .group _, v =>
    (v.groups = [] ∧ v.members = []) ∨ ∃ g, v.groups = [g] ∧ WellStaffed g v.members
  | _, _ => True

/-- How far the transaction of a session has come. -/
inductive GroupProgress where
  /-- no transaction -/
  | idle
  /-- a statement has failed; the transaction may be gone -/
  | failed
  | begun
  /-- `createGroup` has inserted the conversation -/
  | conversation (id : Bytes)
  /-- `createGroup` has inserted the group and these members -/
  | group (group : GroupRecord) (members : List GroupMemberRecord)
  deriving DecidableEq, Repr

namespace GroupProgress

/-- What the session sees. -/
def Working (coll : Collation) (t : GroupTables) : GroupProgress → Prop
  | .idle => True
  | .failed => True
  | .begun => ∀ k, Settled k (t.view coll k)
  | .conversation id =>
    (∀ k, Settled k (t.view coll k)) ∧
      (t.view coll (.table (.conversation (coll id)))).types = [.group]
  | .group g members =>
    (∀ k, k ≠ .group (coll g.id) → Settled k (t.view coll k)) ∧
      t.view coll (.group (coll g.id)) = { groups := [g], members }

/-- The locks that guard what is not settled yet. -/
def guarded (coll : Collation) : GroupProgress → List GroupLock
  | .conversation id => [.table (.conversation (coll id))]
  | .group g _ => [.group (coll g.id)]
  | _ => []

/-- The statements a session may send. -/
def May (p : GroupProgress) : SqlUpdate → Prop
  | .insertConversation _ type _ => p = .begun ∧ type = .group
  | .insertGroup g => p = .conversation g.conversationId
  | .upsertGroupMember m =>
    ∃ g members, p = .group g members ∧ m.groupId = g.id ∧
      m.userId ∉ members.map (·.userId)
  | _ => p = .begun

/-- How far it has come when a statement has succeeded. -/
def after (p : GroupProgress) : SqlUpdate → GroupProgress
  | .insertConversation id _ _ => .conversation id
  | .insertGroup g => .group g []
  | .upsertGroupMember m =>
    match p with
    | .group g members => .group g (members ++ [m])
    | p => p
  | _ => p

/-- The members written so far are those of the group. -/
def Accounts (p : GroupProgress) : GroupWrite → Prop
  | .insertGroupMember row => ∃ g members, p = .group g members ∧ row.toGroupMemberRecord ∈ members
  | .setRole _ _ _ => False
  | _ => True

end GroupProgress

section

variable {t t' : GroupTables} {p : GroupProgress} {statement : SqlUpdate} {now : Timestamp}
  {ws : List GroupWrite}

open GroupProgress

/-- Only the views matter. -/
theorem GroupProgress.Working.congr (h : p.Working coll t)
    (hview : ∀ k, t'.view coll k = t.view coll k) : p.Working coll t' := by
  cases p with
  | idle => trivial
  | failed => trivial
  | begun => exact fun k => hview k ▸ h k
  | conversation id => exact ⟨fun k => hview k ▸ h.1 k, hview _ ▸ h.2⟩
  | group g members => exact ⟨fun k hk => hview k ▸ h.1 k hk, (hview _).trans h.2⟩

theorem view_of_quiet {w : GroupWrite} (hw : w.quiet = true) (t : GroupTables) (k : GroupLock) :
    (t.apply coll w).view coll k = t.view coll k := by
  rw [GroupTables.view_apply]
  unfold GroupWrite.onView
  split
  · cases hw
  · cases hw
  · cases hw
  · cases hw
  · cases hw
  · rfl

theorem working_of_quiet (h : p.Working coll t) (hws : ∀ w ∈ ws, w.quiet = true) :
    p.Working coll ((groupStore coll).applyAll t ws) := by
  induction ws generalizing t with
  | nil => exact h
  | cons w ws ih =>
    obtain ⟨hw, hws⟩ := List.forall_mem_cons.mp hws
    exact ih (h.congr (view_of_quiet hw t)) hws

/-- The conversations with an id, as their lock shows them. -/
theorem types_eq_nil {id : Bytes} (h : t.conversationsWith coll id = []) :
    (t.view coll (.table (.conversation (coll id)))).types = [] := by
  show ((t.conversations.filter fun c => coll c.id = coll id).map (·.type)) = []
  rw [show t.conversations.filter (fun c => coll c.id = coll id) = [] from h]
  rfl

/-- A new conversation: no group refers to it yet. -/
theorem settled_insertConversation {row : Conversation} (h : ∀ k, Settled k (t.view coll k))
    (hnew : t.conversationsWith coll row.id = []) (k : GroupLock) :
    Settled k ((t.apply coll (.table (.insertConversation row))).view coll k) := by
  rw [GroupTables.view_apply]
  have hk := h k
  cases k with
  | table lock =>
    cases lock with
    | conversation k =>
      simp only [GroupWrite.onView]
      split
      next heq =>
        subst heq
        intro hgroups
        have htypes : _ = [ConversationType.group] := hk hgroups
        rw [types_eq_nil hnew] at htypes
        cases htypes
      next => exact hk
    | _ => trivial
  | group k => exact hk
  | _ => trivial

theorem insertConversation_types {row : Conversation}
    (hnew : t.conversationsWith coll row.id = []) :
    ((t.apply coll (.table (.insertConversation row))).view coll
      (.table (.conversation (coll row.id)))).types = [row.type] := by
  rw [GroupTables.view_apply]
  simp only [GroupWrite.onView, if_true]
  rw [types_eq_nil hnew]
  rfl

variable {g : GroupRecord} {row : GroupMemberRow}

/-- A new group under a conversation of its type. -/
theorem working_insertGroup (h : (GroupProgress.conversation g.conversationId).Working coll t)
    (hnew : t.groupsWith coll g.id = []) :
    (GroupProgress.group g []).Working coll (t.apply coll (.insertGroup g)) := by
  obtain ⟨hsettled, htypes⟩ := h
  refine ⟨fun k hk => ?_, ?_⟩
  · rw [GroupTables.view_apply]
    have hkey := hsettled k
    cases k with
    | table lock =>
      cases lock with
      | conversation k =>
        simp only [GroupWrite.onView]
        split
        next heq =>
          subst heq
          exact fun _ => htypes
        next => exact hkey
      | _ => trivial
    | group k =>
      have hne : coll g.id ≠ k := fun heq => hk (congrArg _ heq.symm)
      simp only [GroupWrite.onView, if_neg hne]
      exact hkey
    | _ => trivial
  · have hkey := hsettled (.group (coll g.id))
    have hgroups : (t.view coll (.group (coll g.id))).groups = [] := hnew
    rw [GroupTables.view_apply]
    simp only [GroupWrite.onView, if_true]
    rcases hkey with ⟨-, hmembers⟩ | ⟨g', hone, -⟩
    · -- a group that is not there has no members
      rw [hgroups, hmembers]
      rfl
    · rw [hgroups] at hone
      cases hone

/-- One more member of the group. -/
theorem working_insertGroupMember {members : List GroupMemberRecord}
    (h : (GroupProgress.group g members).Working coll t) (hgroup : row.groupId = g.id) :
    (GroupProgress.group g (members ++ [row.toGroupMemberRecord])).Working coll
      (t.apply coll (.insertGroupMember row)) := by
  obtain ⟨hsettled, hview⟩ := h
  refine ⟨fun k hk => ?_, ?_⟩
  · rw [GroupTables.view_apply]
    have hkey := hsettled k hk
    cases k with
    | table lock => cases lock <;> exact hkey
    | group k =>
      have hne : coll row.groupId ≠ k := fun heq => hk (by rw [← heq, hgroup])
      simp only [GroupWrite.onView, if_neg hne]
      exact hkey
    | _ => trivial
  · rw [GroupTables.view_apply, hview]
    simp only [GroupWrite.onView, hgroup, if_true]

/-- The rows of a group, as its lock shows them. -/
theorem mem_membersOf {members : List GroupMemberRecord}
    (hview : t.view coll (.group (coll g.id)) = { groups := [g], members })
    (hrow : row ∈ t.membersOf coll g.id) : row.toGroupMemberRecord ∈ members := by
  have hmembers : (t.membersOf coll g.id).map (·.toGroupMemberRecord) = members :=
    congrArg GroupView.members hview
  rw [← hmembers]
  exact List.mem_map_of_mem hrow

/-- Every statement keeps what the session works on. -/
theorem working_update (h : p.Working coll t) (hmay : p.May statement)
    (hmakes : t.Makes coll now statement ws) :
    (p.after statement).Working coll ((groupStore coll).applyAll t ws) ∧
      ∀ w ∈ ws, (p.after statement).Accounts w := by
  have hquiet : ∀ {p : GroupProgress}, (∀ w ∈ ws, w.quiet = true) → ∀ w ∈ ws, p.Accounts w := by
    intro p hws w hw
    have := hws w hw
    cases w with
    | table w => trivial
    | insertGroup row => trivial
    | _ => cases this
  cases statement with
  | insertConversation id type key =>
    obtain ⟨rfl, rfl⟩ := hmay
    obtain ⟨hnew, rfl⟩ := hmakes
    refine ⟨⟨settled_insertConversation h hnew, insertConversation_types hnew⟩, ?_⟩
    exact List.forall_mem_singleton.mpr trivial
  | upsertConversation id key =>
    obtain rfl : p = .begun := hmay
    rcases hmakes with rfl | ⟨hnew, rfl⟩
    · exact ⟨h, fun w hw => absurd hw List.not_mem_nil⟩
    · exact ⟨settled_insertConversation h hnew, List.forall_mem_singleton.mpr trivial⟩
  | insertGroup g =>
    obtain rfl : p = .conversation g.conversationId := hmay
    obtain ⟨hnew, rfl⟩ := hmakes
    exact ⟨working_insertGroup h hnew, List.forall_mem_singleton.mpr trivial⟩
  | upsertGroupMember m =>
    obtain ⟨g, members, rfl, hgroup, hfresh⟩ := hmay
    rcases hmakes with ⟨⟨row, hrow, huser⟩, -⟩ | ⟨-, rfl⟩
    · rw [hgroup] at hrow
      exact absurd (List.mem_map.mpr ⟨_, mem_membersOf h.2 hrow, huser⟩) hfresh
    · refine ⟨working_insertGroupMember h hgroup, List.forall_mem_singleton.mpr ?_⟩
      exact ⟨g, members ++ [m], rfl, List.mem_append_right _ (List.mem_singleton.mpr rfl)⟩
  | insertConversationMember id user | upsertConversationMember id user | allocateSequence id
  | insertMessage m sequence =>
    obtain rfl : p = .begun := hmay
    exact ⟨working_of_quiet h hmakes, hquiet hmakes⟩

/-- What was accounted for still is. -/
theorem GroupProgress.Accounts.after {w : GroupWrite} (h : p.Accounts w)
    (hmay : p.May statement) : (p.after statement).Accounts w := by
  cases w with
  | insertGroupMember row =>
    obtain ⟨g, members, rfl, hrow⟩ := h
    cases statement with
    | upsertGroupMember m => exact ⟨g, members ++ [m], rfl, List.mem_append_left _ hrow⟩
    | insertConversation id type key => cases hmay.1
    | _ => cases hmay
  | setRole groupId userId role => exact h.elim
  | _ => trivial

/-- The locks that matter are those of before or of the statement's writes. -/
theorem guarded_after {k : GroupLock} (hmay : p.May statement)
    (hmakes : t.Makes coll now statement ws) (hk : k ∈ (p.after statement).guarded coll) :
    k ∈ p.guarded coll ∨ ∃ w ∈ ws, k ∈ w.touches coll := by
  cases statement with
  | insertConversation id type key =>
    obtain ⟨-, rfl⟩ := hmakes
    obtain rfl := List.mem_singleton.mp hk
    exact .inr ⟨_, List.mem_singleton.mpr rfl, by simp [GroupWrite.touches, Write.touches]⟩
  | insertGroup g =>
    obtain ⟨-, rfl⟩ := hmakes
    obtain rfl := List.mem_singleton.mp hk
    exact .inr ⟨_, List.mem_singleton.mpr rfl, by simp [GroupWrite.touches]⟩
  | upsertGroupMember m =>
    obtain ⟨g, members, rfl, -, -⟩ := hmay
    exact .inl hk
  | _ => exact .inl hk

/-- A transaction that may be committed leaves the tables in order. -/
theorem GroupProgress.Working.settled (h : p.Working coll t)
    (hp : p = .begun ∨ ∃ g members, p = .group g members ∧ WellStaffed g members) :
    ∀ k, Settled k (t.view coll k) := by
  rcases hp with rfl | ⟨g, members, rfl, hstaffed⟩
  · exact h
  · intro k
    by_cases hk : k = .group (coll g.id)
    · rw [hk, h.2]
      exact .inr ⟨g, rfl, hstaffed⟩
    · exact h.1 k hk

/-- A new member of a group that is there, and not as its owner. -/
theorem settled_addMember (h : ∀ k, Settled k (t.view coll k))
    (hgroup : t.groupsWith coll row.groupId ≠ [])
    (hnew : ∀ r ∈ t.membersOf coll row.groupId, r.userId ≠ row.userId)
    (hrole : row.role ≠ str "owner") (k : GroupLock) :
    Settled k ((t.apply coll (.insertGroupMember row)).view coll k) := by
  rw [GroupTables.view_apply]
  have hkey := h k
  cases k with
  | table lock => cases lock <;> exact hkey
  | group k =>
    simp only [GroupWrite.onView]
    split
    next heq =>
      subst heq
      rcases hkey with ⟨hnone, -⟩ | ⟨g, hone, hstaffed⟩
      · exact absurd hnone hgroup
      · refine .inr ⟨g, hone, ?_, ?_⟩
        · simp only [List.filter_append, List.map_append, hstaffed.owner]
          simp [hrole]
        · rw [List.map_append]
          refine hstaffed.nodup.append (List.nodup_singleton _) ?_
          rw [List.map_singleton, List.disjoint_singleton]
          intro hmem
          obtain ⟨m, hm, huser⟩ := List.mem_map.mp hmem
          obtain ⟨r, hr, rfl⟩ := List.mem_map.mp hm
          exact hnew r hr huser
    next => exact hkey
  | _ => trivial

/-- The tables others have locked look the same; the rest is in order. -/
theorem GroupProgress.Working.stable {locks : List GroupLock} (h : p.Working coll t)
    (hguarded : ∀ k ∈ p.guarded coll, k ∈ locks)
    (hsame : ∀ k ∈ locks, t'.view coll k = t.view coll k)
    (hrest : ∀ k, k ∉ locks → Settled k (t'.view coll k)) : p.Working coll t' := by
  have hsettled : ∀ k, Settled k (t.view coll k) → Settled k (t'.view coll k) := by
    intro k hk
    by_cases hmem : k ∈ locks
    · exact hsame k hmem ▸ hk
    · exact hrest k hmem
  cases p with
  | idle => trivial
  | failed => trivial
  | begun => exact fun k => hsettled k (h k)
  | conversation id =>
    refine ⟨fun k => hsettled k (h.1 k), ?_⟩
    rw [hsame _ (hguarded _ (List.mem_singleton.mpr rfl))]
    exact h.2
  | group g members =>
    refine ⟨fun k hk => hsettled k (h.1 k hk), ?_⟩
    rw [hsame _ (hguarded _ (List.mem_singleton.mpr rfl))]
    exact h.2

end

end ChatServer.Db
