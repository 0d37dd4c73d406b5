import ChatServer.Db.GroupStore

/-!
# `GroupRepository` on shared tables

The functions of `GroupRepository`, with those of `MessageRepository` that group
messages need, as programs over statements, and the statements on a database that
other sessions use at the same time.

* `GroupInv` — what holds of the database between any two statements;
* `Fits` — how the transaction of a session fits how far the session has come;
* `GroupInv.exec_step` — every statement a session may send keeps both, and what it commits;
* `Fits.stable` — nothing another session does touches what a session works on;
* `createGroup_leaves` — what `createGroup` does when nobody interferes.
-/

namespace ChatServer.Db

open Base

/-- What the repositories ask of their connections. -/
inductive GroupSql : Type → Type 1
  /-- `pool_->borrow()`, with its error -/
  | borrow : GroupSql (Option DbPoolError)
  /-- the calls of `createGroup` and `createMessage` -/
  | sql {γ : Type} (op : Sql γ) : GroupSql γ
  /-- the `INSERT` of `addMember`; the number of affected rows -/
  | insertGroupMember (member : GroupMemberRecord) : GroupSql (Except Nat Nat)
  | selectGroup (groupId : Bytes) : GroupSql (Except Nat (Option GroupRecord))
  | selectMembers (groupId : Bytes) : GroupSql (Except Nat (List GroupMemberRecord))

abbrev GroupDb := Database GroupTables GroupWrite GroupLock

/-- What the server decides about a statement. `LAST_INSERT_ID()` of the connection is
left open. -/
structure GroupChoice extends SqlChoice where
  now : Timestamp := 0
  lastInsertId : Option Int := none
  deriving DecidableEq, Repr

section

variable (coll : Collation)

/-- A statement that only reads. -/
def GroupDb.read {γ : Type} (d : GroupDb) (fate : Fate Nat) (i : Nat) (answer : Except Nat γ) :
    Option (Except Nat γ × GroupDb) :=
  d.statement (groupStore coll) fate i (answer.map (·, ⟨[], []⟩))

/-- Carry out a statement of session `i`; `none` while it waits for a lock. -/
def GroupDb.exec (choice : GroupChoice) (i : Nat) (d : GroupDb) :
    ∀ {γ : Type}, GroupSql γ → Option (γ × GroupDb)
  | _, .borrow => some (choice.borrowError, d)
  | _, .sql (.query .startTransaction) => some (d.startCommand (groupStore coll) i choice.fate)
  | _, .sql (.query .commit) => some (d.commitCommand (groupStore coll) i choice.fate)
  | _, .sql (.query .rollback) => some (d.rollbackCommand i choice.fate)
  | _, .sql (.update statement) =>
    d.statement (groupStore coll) choice.fate i
      ((d.overlay (groupStore coll) i).update coll choice.now statement)
  | _, .sql (.selectMessage fromUserId clientMsgId) =>
    d.read coll choice.fate i (.ok
      (((d.overlay (groupStore coll) i).messagesFrom coll fromUserId clientMsgId).head?.map some))
  | _, .sql (.selectConversation key) =>
    d.read coll choice.fate i (.ok
      (((d.overlay (groupStore coll) i).conversations.find? fun r =>
        r.singleChatKey.map coll = some (coll key)).map (·.id)))
  | _, .sql .selectLastInsertId => d.read coll choice.fate i (.ok choice.lastInsertId)
  | _, .sql .markBad => some ((), d)
  | _, .insertGroupMember member =>
    d.statement (groupStore coll) choice.fate i
      ((d.overlay (groupStore coll) i).insertMember coll choice.now member)
  | _, .selectGroup groupId =>
    d.read coll choice.fate i ((d.overlay (groupStore coll) i).selectGroup coll groupId)
  | _, .selectMembers groupId =>
    d.read coll choice.fate i ((d.overlay (groupStore coll) i).selectMembers coll groupId)

end

/-! ## The functions -/

namespace GroupRepository

variable {ε α : Type}

/-- Borrow a connection, or fail with its error. -/
def withConnection (failed : RepositoryStatus → α) (p : Prog GroupSql ε α) :
    Prog GroupSql ε α := do
  match ← Prog.perform .borrow with
  | some error => return failed (mapBorrowError error)
  | none => p

/-- `findGroup`. -/
def findGroup (groupId : Bytes) : Prog GroupSql ε GroupResult :=
  withConnection (fun status => { status }) do
    match ← Prog.perform (.selectGroup groupId) with
    | .ok (some group) => return { status := .ok, group := some group }
    | .ok none => return { status := .notFound }
    | .error errno =>
      let status ← (statementFault .markBad errno .queryFailed).lift .sql
      return { status }

/-- `addMember`. -/
def addMember (member : GroupMemberRecord) : Prog GroupSql ε AddMemberResult :=
  withConnection (fun status => { status }) do
    match ← Prog.perform (.insertGroupMember member) with
    | .ok _ => return { status := .ok, member := some member }
    | .error errno =>
      let status ← (statementFault .markBad errno .insertFailed).lift .sql
      return { status := insertStatus status errno }

/-- `listMembers`. -/
def listMembers (groupId : Bytes) : Prog GroupSql ε ListMembersResult :=
  withConnection (fun status => { status }) do
    match ← Prog.perform (.selectMembers groupId) with
    | .ok members => return { status := .ok, members }
    | .error errno =>
      let status ← (statementFault .markBad errno .queryFailed).lift .sql
      return { status }

end GroupRepository

/-! ## How far a session has come -/

namespace GroupProgress

/-- After a statement that failed. -/
def lost : GroupProgress → GroupProgress
  | .idle => .idle
  | _ => .failed

def see (p : GroupProgress) : Event GroupSql → GroupProgress
  | ⟨.sql (.query .startTransaction), .ok _⟩ => .begun
  | ⟨.sql (.query .commit), .ok _⟩ => .idle
  | ⟨.sql (.query .commit), .error _⟩ => .failed
  | ⟨.sql (.query .rollback), _⟩ => .idle
  | ⟨.sql (.update statement), .ok _⟩ => p.after statement
  | ⟨.sql (.update _), .error _⟩ => p.lost
  | ⟨.sql (.selectMessage _ _), .error _⟩ => p.lost
  | ⟨.sql (.selectConversation _), .error _⟩ => p.lost
  | ⟨.sql .selectLastInsertId, .error _⟩ => p.lost
  | ⟨.insertGroupMember _, .error _⟩ => p.lost
  | ⟨.selectGroup _, .error _⟩ => p.lost
  | ⟨.selectMembers _, .error _⟩ => p.lost
  | _ => p

/-- The statements a session may send. -/
def Sends (p : GroupProgress) : ∀ {γ : Type}, GroupSql γ → Prop
  | _, .sql (.query .startTransaction) => p = .idle
  | _, .sql (.query .commit) =>
    p = .begun ∨ ∃ g members, p = .group g members ∧ WellStaffed g members
  | _, .sql (.update statement) => p.May statement
  | _, .insertGroupMember member => p = .idle ∧ member.role ≠ str "owner"
  | _, _ => True

/-- What a statement commits, given the tables before. -/
def Commits (coll : Collation) (p : GroupProgress) (before : GroupTables) :
    ∀ {γ : Type}, GroupSql γ → GroupWrite → Prop
  | _, .sql (.query .commit), .insertGroupMember row =>
    ∃ g members, p = .group g members ∧ row.toGroupMemberRecord ∈ members ∧
      before.groupsWith coll g.id = []
  | _, .sql (.query .commit), .setRole _ _ _ => False
  | _, .sql (.query .commit), _ => True
  | _, .insertGroupMember member, w => ∃ now, w = .insertGroupMember ⟨member, now⟩
  | _, _, _ => False

end GroupProgress

/-- The transaction of a session that works on a group. -/
structure InTxn (coll : Collation) (committed : GroupTables) (p : GroupProgress)
    (t : Txn GroupWrite GroupLock) : Prop where
  working : p.Working coll ((groupStore coll).applyAll committed t.writes)
  guarded : ∀ k ∈ p.guarded coll, k ∈ t.locks
  accounted : ∀ w ∈ t.writes, p.Accounts w
  founded : ∀ g members, p = .group g members → .insertGroup g ∈ t.writes

/-- The transaction of a session, as far as the session has come. -/
def Fits (coll : Collation) (d : GroupDb) (i : Nat) : GroupProgress → Prop
  | .idle => d.txn i = none
  | .failed => True
  | p => ∃ t, d.txn i = some t ∧ InTxn coll d.committed p t

/-- What holds of the database between any two statements. -/
structure GroupInv (coll : Collation) (d : GroupDb) : Prop where
  sound : d.Sound (groupStore coll)
  settled : ∀ k, Settled k (d.committed.view coll k)
  /-- every member was inserted by a commit -/
  written : ∀ row ∈ d.committed.groupMembers, ∃ e ∈ d.history, e.write = .insertGroupMember row

/-- Empty tables. -/
theorem GroupInv.empty (coll : Collation) : GroupInv coll { committed := {} } := by
  refine ⟨⟨fun _ _ _ _ _ ht => (nomatch ht), fun _ _ ht => nomatch ht⟩, fun k => ?_,
    fun row hrow => absurd hrow List.not_mem_nil⟩
  cases k with
  | group id => exact .inl ⟨rfl, rfl⟩
  | table lock =>
    cases lock with
    | conversation id => exact fun hgroups => absurd rfl hgroups
    | _ => trivial
  | _ => trivial

/-! ## Rows that writes add -/

section

variable {coll : Collation}

def GroupWrite.insertedMember : GroupWrite → Option GroupMemberRow
  | .insertGroupMember row => some row
  | _ => none

def GroupWrite.insertedGroup : GroupWrite → Option GroupRecord
  | .insertGroup row => some row
  | _ => none

variable {ws : List GroupWrite} {fate : Fate Nat} {statement : SqlUpdate} {now : Timestamp}
  {answer : Except Nat Unit}

theorem groupMembers_applyAll (t : GroupTables)
    (h : ∀ w ∈ ws, ∀ groupId userId role, w ≠ .setRole groupId userId role) :
    ((groupStore coll).applyAll t ws).groupMembers =
      t.groupMembers ++ ws.filterMap GroupWrite.insertedMember := by
  induction ws generalizing t with
  | nil => exact (List.append_nil _).symm
  | cons w ws ih =>
    obtain ⟨hw, hws⟩ := List.forall_mem_cons.mp h
    have hrest := ih (t.apply coll w) hws
    refine hrest.trans ?_
    cases w with
    | insertGroupMember row => simp [GroupTables.apply, GroupWrite.insertedMember]
    | setRole groupId userId role => exact absurd rfl (hw groupId userId role)
    | _ =>
      rw [List.filterMap_cons_none rfl]
      rfl

theorem groups_applyAll (t : GroupTables) (ws : List GroupWrite) :
    ((groupStore coll).applyAll t ws).groups =
      t.groups ++ ws.filterMap GroupWrite.insertedGroup := by
  induction ws generalizing t with
  | nil => exact (List.append_nil _).symm
  | cons w ws ih =>
    refine (ih (t.apply coll w)).trans ?_
    cases w with
    | insertGroup row => simp [GroupTables.apply, GroupWrite.insertedGroup]
    | _ =>
      rw [List.filterMap_cons_none rfl]
      rfl

theorem GroupProgress.Accounts.not_setRole {p : GroupProgress} {w : GroupWrite} (h : p.Accounts w)
    (groupId : Bytes) (userId : UserId) (role : Bytes) : w ≠ .setRole groupId userId role := by
  rintro rfl
  exact h

/-- The group a session is about to create is not there yet. -/
theorem InTxn.new_group {committed : GroupTables} {g : GroupRecord}
    {members : List GroupMemberRecord} {t : Txn GroupWrite GroupLock}
    (h : InTxn coll committed (.group g members) t) : committed.groupsWith coll g.id = [] := by
  have hview : ((groupStore coll).applyAll committed t.writes).groupsWith coll g.id = [g] :=
    congrArg GroupView.groups h.working.2
  have hg : g ∈ (t.writes.filterMap GroupWrite.insertedGroup).filter
      fun r => coll r.id = coll g.id :=
    List.mem_filter.mpr ⟨List.mem_filterMap.mpr ⟨_, h.founded g members rfl, rfl⟩,
      decide_eq_true rfl⟩
  unfold GroupTables.groupsWith at hview ⊢
  rw [groups_applyAll, List.filter_append] at hview
  have hlength := congrArg List.length hview
  rw [List.length_append, List.length_singleton] at hlength
  have hpos := List.length_pos_of_mem hg
  exact List.eq_nil_of_length_eq_zero (by omega)

/-! ## What a statement does -/

variable {d d' : GroupDb} {i j : Nat} {p : GroupProgress}

theorem Fits.of_eq (h : Fits coll d i p) (htxn : d'.txn i = d.txn i)
    (hcommitted : d'.committed = d.committed) : Fits coll d' i p := by
  unfold Fits at h ⊢
  rw [htxn, hcommitted]
  exact h

theorem Fits.put_none (h : Fits coll d i p) : Fits coll (d.put i none) i p.lost := by
  cases p with
  | idle => exact Database.txn_put_self d i none
  | _ => trivial

theorem Fits.lost (h : Fits coll d i p) : Fits coll d i p.lost := by
  cases p with
  | idle => exact h
  | _ => trivial

theorem GroupInv.put_none (h : GroupInv coll d) (i : Nat) : GroupInv coll (d.put i none) :=
  ⟨h.sound.put_none i, h.settled, h.written⟩

/-- Committing writes that leave the tables in order and add members only. -/
theorem GroupInv.commit (h : GroupInv coll d)
    (hsettled : ∀ k, Settled k (((groupStore coll).applyAll d.committed ws).view coll k))
    (hws : ∀ w ∈ ws, ∀ groupId userId role, w ≠ .setRole groupId userId role) :
    GroupInv coll (d.commit (groupStore coll) i ws) := by
  refine ⟨h.sound.commit i ws, hsettled, fun row hrow => ?_⟩
  have hrows : row ∈ ((groupStore coll).applyAll d.committed ws).groupMembers := hrow
  rw [groupMembers_applyAll d.committed hws] at hrows
  rcases List.mem_append.mp hrows with hold | hnew
  · obtain ⟨e, he, hwrite⟩ := h.written row hold
    exact ⟨e, List.mem_append_left _ he, hwrite⟩
  · obtain ⟨w, hw, hinserted⟩ := List.mem_filterMap.mp hnew
    refine ⟨⟨i, d.committed, w⟩, List.mem_append_right _ (List.mem_map_of_mem hw), ?_⟩
    cases w with
    | insertGroupMember r => exact congrArg _ (Option.some.inj hinserted)
    | _ => cases hinserted

/-- The result of a step: what was committed, and that everything still holds. -/
structure Stepped (coll : Collation) (d d' : GroupDb) (i : Nat) (p : GroupProgress)
    (ws : List GroupWrite) : Prop where
  moves : Database.Moves (groupStore coll) d d' i ws
  inv : GroupInv coll d'
  fits : Fits coll d' i p

theorem Stepped.same (hinv : GroupInv coll d) (hfits : Fits coll d i p) : Stepped coll d d i p [] :=
  ⟨.refl d i, hinv, hfits⟩

theorem Stepped.dropped (hinv : GroupInv coll d) (hfits : Fits coll d i p) :
    Stepped coll d (d.put i none) i p.lost [] :=
  ⟨Database.moves_put d i none, hinv.put_none i, hfits.put_none⟩

/-- A statement that only reads. -/
theorem read_step {γ : Type} {effect answer : Except Nat γ} (hinv : GroupInv coll d)
    (hfits : Fits coll d i p) (h : d.read coll fate i effect = some (answer, d')) :
    ((∃ r, answer = .ok r ∧ effect = .ok r) ∧ Stepped coll d d' i p []) ∨
      (∃ errno, answer = .error errno) ∧ Stepped coll d d' i p.lost [] := by
  have hwrite : ∀ r g, effect.map (·, (⟨[], []⟩ : Granted GroupWrite GroupLock)) = .ok (r, g) →
      effect = .ok r ∧ Stepped coll d (d.write (groupStore coll) i g) i p [] := by
    intro r g heffect
    cases effect with
    | error errno => cases heffect
    | ok r' =>
      obtain ⟨rfl, rfl⟩ := Prod.mk.inj (Except.ok.inj heffect)
      rw [Database.write_nothing]
      exact ⟨rfl, Database.moves_put d i _, ⟨hinv.sound.put_txn i, hinv.settled, hinv.written⟩,
        hfits.of_eq (Database.txn_put_self d i _) rfl⟩
  rcases Database.statement_cases h with ⟨errno, hanswer, hd⟩ | ⟨r, g, heffect, -, hcase⟩
  · refine .inr ⟨⟨errno, hanswer⟩, ?_⟩
    rcases hd with rfl | rfl
    · exact .same hinv hfits.lost
    · exact .dropped hinv hfits
  · obtain ⟨hr, hstep⟩ := hwrite r g heffect
    rcases hcase with ⟨hanswer, rfl⟩ | ⟨errno, hanswer, rfl⟩
    · exact .inl ⟨⟨r, hanswer, hr⟩, hstep⟩
    · exact .inr ⟨⟨errno, hanswer⟩, hstep.moves.put none, hstep.inv.put_none i, hstep.fits.put_none⟩

theorem Fits.of_txn {t : Txn GroupWrite GroupLock} (ht : d.txn i = some t)
    (hin : InTxn coll d.committed p t) (hp : p ≠ .idle) : Fits coll d i p := by
  cases p with
  | idle => exact absurd rfl hp
  | failed => trivial
  | begun | conversation id | group g members => exact ⟨t, ht, hin⟩

/-- A session that may send a statement has a transaction, and has one afterwards. -/
theorem Fits.of_may (h : Fits coll d i p) (hmay : p.May statement) :
    (∃ t, d.txn i = some t ∧ InTxn coll d.committed p t) ∧ p.after statement ≠ .idle := by
  cases statement with
  | insertConversation id type key =>
    obtain ⟨rfl, -⟩ := hmay
    exact ⟨h, nofun⟩
  | insertGroup g =>
    obtain rfl : p = .conversation g.conversationId := hmay
    exact ⟨h, nofun⟩
  | upsertGroupMember m =>
    obtain ⟨g, members, rfl, -, -⟩ := hmay
    exact ⟨h, nofun⟩
  | upsertConversation id key | insertConversationMember id user | upsertConversationMember id user
  | allocateSequence id | insertMessage m sequence =>
    obtain rfl : p = .begun := hmay
    exact ⟨h, nofun⟩

/-- The statement that inserts the group is among the writes. -/
theorem founded_after {t : GroupTables} {g : GroupRecord} {members : List GroupMemberRecord}
    (hmay : p.May statement) (hmakes : t.Makes coll now statement ws)
    (h : p.after statement = .group g members) :
    (∃ members, p = .group g members) ∨ .insertGroup g ∈ ws := by
  cases statement with
  | insertConversation id type key => cases h
  | insertGroup g' =>
    obtain ⟨-, rfl⟩ := hmakes
    obtain ⟨rfl, -⟩ := GroupProgress.group.inj h
    exact .inr (List.mem_singleton.mpr rfl)
  | upsertGroupMember m =>
    obtain ⟨g', members', rfl, -, -⟩ := hmay
    obtain ⟨rfl, -⟩ := GroupProgress.group.inj h
    exact .inl ⟨members', rfl⟩
  | _ => exact .inl ⟨members, h⟩

/-- A statement inside a transaction. -/
theorem update_step {answer : Except Nat Nat} (hinv : GroupInv coll d) (hfits : Fits coll d i p)
    (hmay : p.May statement)
    (h : d.statement (groupStore coll) fate i
      ((d.overlay (groupStore coll) i).update coll now statement) = some (answer, d')) :
    ((∃ n, answer = .ok n) ∧ Stepped coll d d' i (p.after statement) []) ∨
      (∃ errno, answer = .error errno) ∧ Stepped coll d d' i p.lost [] := by
  obtain ⟨⟨t, ht, hin⟩, hidle⟩ := hfits.of_may hmay
  rcases Database.statement_cases h with ⟨errno, hanswer, hd⟩ | ⟨n, g, heffect, hfree, hcase⟩
  · refine .inr ⟨⟨errno, hanswer⟩, ?_⟩
    rcases hd with rfl | rfl
    · exact .same hinv hfits.lost
    · exact .dropped hinv hfits
  · rw [Database.overlay_of_some ht] at heffect
    obtain ⟨hcovered, hmakes⟩ := update_inv heffect
    obtain ⟨hworking, haccounts⟩ := working_update hin.working hmay hmakes
    have hwrite : d.write (groupStore coll) i g =
        d.put i (some ⟨t.writes ++ g.writes, t.locks ++ g.locks⟩) := by
      unfold Database.write
      rw [ht]
    have hgrown : InTxn coll d.committed (p.after statement)
        ⟨t.writes ++ g.writes, t.locks ++ g.locks⟩ := by
      refine ⟨?_, fun k hk => ?_, fun w hw => ?_, fun g' members hgroup => ?_⟩
      · rw [Store.applyAll_append]
        exact hworking
      · rcases guarded_after hmay hmakes hk with hold | ⟨w, hw, htouch⟩
        · exact List.mem_append_left _ (hin.guarded k hold)
        · exact List.mem_append_right _ (hcovered w hw k htouch)
      · rcases List.mem_append.mp hw with hold | hnew
        · exact (hin.accounted w hold).after hmay
        · exact haccounts w hnew
      · rcases founded_after hmay hmakes hgroup with ⟨members', hp⟩ | hnew
        · exact List.mem_append_left _ (hin.founded g' members' hp)
        · exact List.mem_append_right _ hnew
    rw [hwrite] at hcase
    rcases hcase with ⟨hanswer, rfl⟩ | ⟨errno, hanswer, rfl⟩
    · refine .inl ⟨⟨n, hanswer⟩, Database.moves_put d i _, ⟨?_, hinv.settled, hinv.written⟩, ?_⟩
      · exact hinv.sound.grow ht hfree hcovered
      · exact .of_txn (Database.txn_put_self d i _) hgrown hidle
    · -- the connection is gone, and the transaction with it
      refine .inr ⟨⟨errno, hanswer⟩, (Database.moves_put d i _).put none, ⟨?_, hinv.settled,
        hinv.written⟩, ?_⟩
      · exact (hinv.sound.grow ht hfree hcovered).put_none i
      · cases p with
        | idle => exact Database.txn_put_self _ i none
        | _ => trivial

/-- The commit of a transaction that may be committed. -/
theorem finish_step (hinv : GroupInv coll d) (hfits : Fits coll d i p)
    (hmay : p = .begun ∨ ∃ g members, p = .group g members ∧ WellStaffed g members) :
    ∃ ws, Stepped coll d (d.finish (groupStore coll) i) i .idle ws ∧
      ∀ w ∈ ws, p.Commits coll d.committed (.sql (.query .commit)) w := by
  obtain ⟨t, ht, hin⟩ : ∃ t, d.txn i = some t ∧ InTxn coll d.committed p t := by
    rcases hmay with rfl | ⟨g, members, rfl, -⟩
    · exact hfits
    · exact hfits
  obtain ⟨hfinish, hmoves⟩ := hinv.sound.moves_finish ht
  rw [hfinish]
  refine ⟨t.writes, ⟨hmoves, ?_, Database.txn_put_self d i none⟩, fun w hw => ?_⟩
  · exact hinv.commit (hin.working.settled hmay) fun w hw => (hin.accounted w hw).not_setRole
  · have haccounts := hin.accounted w hw
    cases w with
    | insertGroupMember row =>
      obtain ⟨g, members, rfl, hrow⟩ := haccounts
      exact ⟨g, members, rfl, hrow, hin.new_group⟩
    | setRole groupId userId role => exact haccounts
    | _ => trivial

/-- `START TRANSACTION`, outside of any transaction. -/
theorem start_step (hinv : GroupInv coll d) (hidle : d.txn i = none)
    (h : d.startCommand (groupStore coll) i fate = (answer, d')) :
    Stepped coll d d' i (GroupProgress.idle.see ⟨.sql (.query .startTransaction), answer⟩) [] := by
  have hfits : Fits coll d i .idle := hidle
  have hfinish : d.finish (groupStore coll) i = d := by
    unfold Database.finish
    rw [hidle]
  cases fate with
  | answered =>
    obtain ⟨rfl, rfl⟩ := Prod.mk.inj h
    rw [hfinish]
    refine ⟨Database.moves_put d i _, ⟨?_, hinv.settled, hinv.written⟩, ?_⟩
    · refine hinv.sound.put_some ?_ ?_
      · exact fun _ _ _ _ _ hk => absurd hk List.not_mem_nil
      · exact fun _ hw => absurd hw List.not_mem_nil
    · refine ⟨⟨[], []⟩, Database.txn_put_self d i _, hinv.settled, ?_, ?_, ?_⟩
      · exact fun _ hk => absurd hk List.not_mem_nil
      · exact fun _ hw => absurd hw List.not_mem_nil
      · exact fun _ _ hp => nomatch hp
  | refused errno =>
    obtain ⟨rfl, rfl⟩ := Prod.mk.inj h
    exact .same hinv hfits
  | aborted errno =>
    obtain ⟨rfl, rfl⟩ := Prod.mk.inj h
    exact .dropped hinv hfits
  | unanswered errno =>
    -- nothing was open, and what was begun is gone with the connection
    obtain ⟨rfl, rfl⟩ := Prod.mk.inj h
    rw [hfinish]
    exact .same hinv hfits

/-- `COMMIT`: what it commits, it commits whether or not it is answered. -/
theorem commit_step (hinv : GroupInv coll d) (hfits : Fits coll d i p)
    (hmay : p = .begun ∨ ∃ g members, p = .group g members ∧ WellStaffed g members)
    (h : d.commitCommand (groupStore coll) i fate = (answer, d')) :
    ∃ ws, Stepped coll d d' i (p.see ⟨.sql (.query .commit), answer⟩) ws ∧
      ∀ w ∈ ws, p.Commits coll d.committed (.sql (.query .commit)) w := by
  have hnone : ∀ w ∈ ([] : List GroupWrite),
      p.Commits coll d.committed (.sql (.query .commit)) w :=
    fun w hw => absurd hw List.not_mem_nil
  cases fate with
  | answered =>
    obtain ⟨rfl, rfl⟩ := Prod.mk.inj h
    exact finish_step hinv hfits hmay
  | refused errno =>
    obtain ⟨rfl, rfl⟩ := Prod.mk.inj h
    exact ⟨[], ⟨.refl d i, hinv, trivial⟩, hnone⟩
  | aborted errno =>
    obtain ⟨rfl, rfl⟩ := Prod.mk.inj h
    exact ⟨[], ⟨Database.moves_put d i none, hinv.put_none i, trivial⟩, hnone⟩
  | unanswered errno =>
    -- the writes are kept, only the answer is lost
    obtain ⟨rfl, rfl⟩ := Prod.mk.inj h
    obtain ⟨ws, hstep, hcommits⟩ := finish_step hinv hfits hmay
    exact ⟨ws, ⟨hstep.moves, hstep.inv, trivial⟩, hcommits⟩

theorem rollback_step (hinv : GroupInv coll d) (h : d.rollbackCommand i fate = (answer, d')) :
    Stepped coll d d' i .idle [] := by
  have hd : d' = d.put i none := by
    cases fate <;> exact (Prod.mk.inj h).2.symm
  subst hd
  exact ⟨Database.moves_put d i none, hinv.put_none i, Database.txn_put_self d i none⟩

/-- `addMember`, outside of any transaction. -/
theorem addMember_step {member : GroupMemberRecord} {answer : Except Nat Nat}
    (hinv : GroupInv coll d) (hidle : d.txn i = none) (hrole : member.role ≠ str "owner")
    (h : d.statement (groupStore coll) fate i
      ((d.overlay (groupStore coll) i).insertMember coll now member) = some (answer, d')) :
    ∃ ws, Stepped coll d d' i .idle ws ∧
      ∀ w ∈ ws, GroupProgress.idle.Commits coll d.committed (.insertGroupMember member) w := by
  have hfits : Fits coll d i .idle := hidle
  rcases Database.statement_cases h with ⟨errno, -, hd⟩ | ⟨n, g, heffect, hfree, hcase⟩
  · refine ⟨[], ?_, fun w hw => absurd hw List.not_mem_nil⟩
    rcases hd with rfl | rfl
    · exact .same hinv hfits
    · exact .dropped hinv hfits
  · rw [Database.overlay_of_none hidle] at heffect
    obtain ⟨hcovered, hwrites, hgroup, hnew⟩ := insertMember_inv heffect
    have hwrite : d.write (groupStore coll) i g = d.commit (groupStore coll) i g.writes := by
      unfold Database.write
      rw [hidle]
    -- without a transaction the statement commits by itself
    have hcommit : Stepped coll d (d.commit (groupStore coll) i g.writes) i .idle g.writes := by
      refine ⟨Database.moves_commit hfree hcovered, hinv.commit ?_ ?_,
        Database.txn_put_self d i none⟩
      · rw [hwrites]
        exact settled_addMember hinv.settled hgroup hnew hrole
      · rw [hwrites]
        exact List.forall_mem_singleton.mpr fun _ _ _ => nofun
    refine ⟨g.writes, ?_, fun w hw => ?_⟩
    · rw [hwrite] at hcase
      rcases hcase with ⟨-, rfl⟩ | ⟨errno, -, rfl⟩
      · exact hcommit
      · exact ⟨hcommit.moves.put none, hcommit.inv.put_none i, hcommit.fits.put_none⟩
    · rw [hwrites] at hw
      exact ⟨now, List.mem_singleton.mp hw⟩

/-- Every statement a session may send keeps the database in order, and commits what
it may commit. -/
theorem GroupInv.exec_step {choice : GroupChoice} {γ : Type} {op : GroupSql γ} {answer : γ}
    (hinv : GroupInv coll d) (hfits : Fits coll d i p) (hsends : p.Sends op)
    (h : d.exec coll choice i op = some (answer, d')) :
    ∃ ws, Stepped coll d d' i (p.see ⟨op, answer⟩) ws ∧
      ∀ w ∈ ws, p.Commits coll d.committed op w := by
  have hnone : ∀ w ∈ ([] : List GroupWrite), p.Commits coll d.committed op w :=
    fun w hw => absurd hw List.not_mem_nil
  cases op with
  | borrow =>
    obtain ⟨-, rfl⟩ := Prod.mk.inj (Option.some.inj h)
    exact ⟨[], .same hinv hfits, hnone⟩
  | insertGroupMember member =>
    obtain ⟨rfl, hrole⟩ := hsends
    obtain ⟨ws, hstep, hcommits⟩ := addMember_step hinv hfits hrole h
    cases answer with
    | ok n => exact ⟨ws, hstep, hcommits⟩
    | error errno => exact ⟨ws, hstep, hcommits⟩
  | selectGroup groupId | selectMembers groupId =>
    rcases read_step hinv hfits h with ⟨⟨r, rfl, -⟩, hstep⟩ | ⟨⟨errno, rfl⟩, hstep⟩
    · exact ⟨[], hstep, hnone⟩
    · exact ⟨[], hstep, hnone⟩
  | sql op =>
    cases op with
    | markBad =>
      obtain ⟨-, rfl⟩ := Prod.mk.inj (Option.some.inj h)
      exact ⟨[], .same hinv hfits, hnone⟩
    | selectMessage fromUserId clientMsgId | selectConversation key | selectLastInsertId =>
      rcases read_step hinv hfits h with ⟨⟨r, rfl, -⟩, hstep⟩ | ⟨⟨errno, rfl⟩, hstep⟩
      · exact ⟨[], hstep, hnone⟩
      · exact ⟨[], hstep, hnone⟩
    | update statement =>
      rcases update_step hinv hfits hsends h with ⟨⟨n, rfl⟩, hstep⟩ | ⟨⟨errno, rfl⟩, hstep⟩
      · exact ⟨[], hstep, hnone⟩
      · exact ⟨[], hstep, hnone⟩
    | query command =>
      cases command with
      | startTransaction =>
        obtain rfl : p = .idle := hsends
        exact ⟨[], start_step hinv hfits (Option.some.inj h), hnone⟩
      | commit => exact commit_step hinv hfits hsends (Option.some.inj h)
      | rollback => exact ⟨[], rollback_step hinv (Option.some.inj h), hnone⟩

/-- Nothing another session does touches what a session works on. -/
theorem Fits.stable (h : Fits coll d j p) (hinv : GroupInv coll d)
    (hmoves : Database.Moves (groupStore coll) d d' i ws) (hinv' : GroupInv coll d') (hne : j ≠ i) :
    Fits coll d' j p := by
  -- what a session works on is under its locks
  have hin : ∀ {t : Txn GroupWrite GroupLock}, d.txn j = some t → InTxn coll d.committed p t →
      InTxn coll d'.committed p t := by
    intro t ht hin
    refine ⟨hin.working.stable hin.guarded (fun k hk => hmoves.view hne ht hk) fun k hk => ?_,
      hin.guarded, hin.accounted, hin.founded⟩
    show Settled k ((groupStore coll).view k ((groupStore coll).applyAll d'.committed t.writes))
    rw [(hinv.sound.covered j t ht).view_commit hk d'.committed]
    exact hinv'.settled k
  have htxn := hmoves.others j hne
  cases p with
  | idle => exact htxn.trans h
  | failed => trivial
  | begun | conversation id | group g members =>
    obtain ⟨t, ht, hworks⟩ := h
    exact ⟨t, htxn.trans ht, hin ht hworks⟩

/-! ## `createGroup` on its own -/

/-- Where a call of session `i` that is answered so brings the database, from one of `ds`. -/
def GroupDb.sees (coll : Collation) (i : Nat) (ds : Set GroupDb) (e : Event Sql) : Set GroupDb :=
  {d' | ∃ d ∈ ds, ∃ choice : GroupChoice, d.exec coll choice i (.sql e.op) = some (e.answer, d')}

/-- Session `i` has a transaction open, since `before`, that inserts the groups `gs`. -/
def Inserting (before : GroupDb) (i : Nat) (gs : List GroupRecord) (d : GroupDb) : Prop :=
  d.committed = before.committed ∧
    ∃ t, d.txn i = some t ∧ t.writes.filterMap GroupWrite.insertedGroup = gs

variable {before : GroupDb} {gs : List GroupRecord} {choice : GroupChoice}

theorem inserting_start (hidle : d.txn i = none)
    (h : d.exec coll choice i (.sql (.query .startTransaction)) = some (.ok (), d')) :
    Inserting d i [] d' := by
  have h : d.startCommand (groupStore coll) i choice.fate = (.ok (), d') := Option.some.inj h
  cases hfate : choice.fate with
  | answered =>
    rw [hfate] at h
    obtain ⟨-, rfl⟩ := Prod.mk.inj h
    unfold Database.finish
    rw [hidle]
    exact ⟨rfl, ⟨[], []⟩, Database.txn_put_self d i _, rfl⟩
  | _ =>
    rw [hfate] at h
    cases h

theorem Inserting.update {n : Nat} (h : Inserting before i gs d)
    (hexec : d.exec coll choice i (.sql (.update statement)) = some (.ok n, d')) :
    ∃ t now ws, t.groups = before.committed.groups ++ gs ∧
      GroupTables.Makes coll t now statement ws ∧
      Inserting before i (gs ++ ws.filterMap GroupWrite.insertedGroup) d' := by
  obtain ⟨hcommitted, t, ht, hgroups⟩ := h
  have hexec : d.statement (groupStore coll) choice.fate i
    ((d.overlay (groupStore coll) i).update coll choice.now statement) = some (.ok n, d') := hexec
  rcases Database.statement_cases hexec with ⟨errno, hno, -⟩ | ⟨r, g, heffect, -, hcase⟩
  · cases hno
  rcases hcase with ⟨-, rfl⟩ | ⟨errno, hno, -⟩
  · rw [Database.overlay_of_some ht] at heffect
    refine ⟨_, _, g.writes, ?_, (update_inv heffect).2, ?_⟩
    · rw [groups_applyAll, hcommitted, hgroups]
    · unfold Database.write
      rw [ht]
      refine ⟨hcommitted, _, Database.txn_put_self d i _, ?_⟩
      rw [List.filterMap_append, hgroups]
  · cases hno

theorem Inserting.commit (h : Inserting before i gs d)
    (hexec : d.exec coll choice i (.sql (.query .commit)) = some (.ok (), d')) :
    d'.committed.groups = before.committed.groups ++ gs := by
  obtain ⟨hcommitted, t, ht, rfl⟩ := h
  have hexec : d.commitCommand (groupStore coll) i choice.fate = (.ok (), d') :=
    Option.some.inj hexec
  cases hfate : choice.fate with
  | answered =>
    rw [hfate] at hexec
    obtain ⟨-, rfl⟩ := Prod.mk.inj hexec
    unfold Database.finish
    rw [ht]
    show ((groupStore coll).applyAll d.committed t.writes).groups = _
    rw [groups_applyAll, hcommitted]
  | _ =>
    rw [hfate] at hexec
    cases hexec

namespace GroupRepository

variable {ds : Set GroupDb} {P R : GroupDb → Prop}

theorem leaves_command {command : SqlCommand} (h : ∀ d ∈ ds, P d)
    (hstep : ∀ d choice d', P d →
      d.exec coll choice i (.sql (.query command)) = some (.ok (), d') → R d') :
    (executeCommand command).Leaves (GroupDb.sees coll i)
      (fun done ds' => done = true → ∀ d' ∈ ds', R d') ds := by
  refine .call trivial fun r => ?_
  cases r with
  | ok u => exact .pure fun _ d' ⟨d, hd, choice, hexec⟩ => hstep d choice d' (h d hd) hexec
  | error errno => exact .ite (fun _ => .after fun _ _ => .pure nofun) fun _ => .pure nofun

theorem leaves_update {fallback : RepositoryStatus} (hfallback : fallback ≠ .ok)
    (h : ∀ d ∈ ds, P d)
    (hstep : ∀ d choice n d', P d →
      d.exec coll choice i (.sql (.update statement)) = some (.ok n, d') → R d') :
    (executeUpdate statement fallback).Leaves (GroupDb.sees coll i)
      (fun r ds' => match r with
        | .ok _ => ∀ d' ∈ ds', R d'
        | .error (status, _) => status ≠ .ok) ds := by
  refine .call trivial fun r => ?_
  cases r with
  | ok n => exact .pure fun d' ⟨d, hd, choice, hexec⟩ => hstep d choice n d' (h d hd) hexec
  | error errno =>
    refine .bind (Q := fun status _ => status ≠ .ok) (.ite (fun _ => ?_) fun _ => ?_)
      fun _ _ hstatus => .pure hstatus
    · exact .after fun _ _ => .pure nofun
    · exact .pure hfallback

theorem insertStatus_ne_ok {status : RepositoryStatus} (h : status ≠ .ok) (errno : Nat) :
    insertStatus status errno ≠ .ok := by
  unfold insertStatus
  split
  · exact nofun
  · exact h

/-- If `createGroup` answers the group, it is new and the only one that is added. -/
def Adds (coll : Collation) (before : GroupDb) (g : GroupRecord) (r : GroupResult)
    (ds : Set GroupDb) : Prop :=
  r.status = .ok → r.group = some g ∧ ∀ d ∈ ds, before.committed.groupsWith coll g.id = [] ∧
    d.committed.groups = before.committed.groups ++ [g]

variable {g : GroupRecord}

theorem leaves_abandon {status : RepositoryStatus} (hstatus : status ≠ .ok) :
    (abandon status).Leaves (GroupDb.sees coll i) (Adds coll before g) ds :=
  .after fun _ _ => .pure fun hok => absurd hok hstatus

theorem insertMembers_leaves (members : List GroupMemberRecord)
    (h : ∀ d ∈ ds, before.committed.groupsWith coll g.id = [] ∧ Inserting before i [g] d) :
    (insertMembers g members).Leaves (GroupDb.sees coll i) (Adds coll before g) ds := by
  induction members generalizing ds with
  | nil =>
    refine .bind (leaves_command (R := fun d' => before.committed.groupsWith coll g.id = [] ∧
      d'.committed.groups = before.committed.groups ++ [g]) h
      fun _ _ _ hd hexec => ⟨hd.1, hd.2.commit hexec⟩) fun done ds' hdone => ?_
    refine .ite (fun h' => .pure fun _ => ⟨rfl, hdone h'⟩) fun _ => ?_
    exact .after fun _ _ => .pure nofun
  | cons member rest ih =>
    refine .bind (leaves_update (R := fun d' => before.committed.groupsWith coll g.id = [] ∧
      Inserting before i [g] d') nofun h fun d _ _ d' hd hexec => ?_) fun r ds' hr => ?_
    · obtain ⟨t, now, ws, -, hmakes, hinserting⟩ := hd.2.update hexec
      -- a member is not a group
      have hnone : ws.filterMap GroupWrite.insertedGroup = [] := by
        rcases hmakes with ⟨-, rfl⟩ | ⟨-, rfl⟩ <;> rfl
      rw [hnone, List.append_nil] at hinserting
      exact ⟨hd.1, hinserting⟩
    · match r, hr with
      | .error (status, _), hr => exact leaves_abandon hr
      | .ok n, hr => exact ih hr

theorem createGroup_leaves (hidle : d.txn i = none) (g : GroupRecord)
    (members : List GroupMemberRecord) :
    (createGroup g members).Leaves (GroupDb.sees coll i) (Adds coll d g) {d} := by
  refine .bind (leaves_command (P := (· = d)) (R := Inserting d i []) (fun _ hd => hd) ?_)
    fun begun ds hbegun => .ite (fun h => ?_) fun _ => .pure nofun
  · rintro _ choice d' rfl hexec
    exact inserting_start hidle hexec
  refine .bind (leaves_update (R := Inserting d i []) nofun (hbegun h) ?_) fun r ds hr => ?_
  · intro d₁ choice n d₂ hd hexec
    obtain ⟨-, -, ws, -, ⟨-, rfl⟩, hinserting⟩ := hd.update hexec
    exact hinserting
  match r, hr with
  | .error (status, errno), hr => exact leaves_abandon (insertStatus_ne_ok hr errno)
  | .ok n, hr =>
    refine .bind (leaves_update (R := fun d' => d.committed.groupsWith coll g.id = [] ∧
      Inserting d i [g] d') nofun hr ?_) fun r ds hr => ?_
    · intro d₂ choice n d₃ hd hexec
      obtain ⟨t, -, ws, hgroups, ⟨hnew, rfl⟩, hinserting⟩ := hd.update hexec
      refine ⟨?_, hinserting⟩
      -- no group was inserted before it: the id is new among the committed ones
      unfold GroupTables.groupsWith at hnew ⊢
      rwa [hgroups, List.append_nil] at hnew
    match r, hr with
    | .error (status, errno), hr => exact leaves_abandon (insertStatus_ne_ok hr errno)
    | .ok n, hr => exact insertMembers_leaves members hr

end GroupRepository

end

end ChatServer.Db
