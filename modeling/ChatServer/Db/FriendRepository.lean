import ChatServer.Db.FriendList
import ChatServer.Db.MessageStatus
import ChatServer.Db.Transactions

/-!
# `FriendRepository`, statement by statement

The table `friendships` with the constraints of its schema, the statements of the
repository on it, and the functions of the repository as programs over those
statements. Nothing is locked between two statements of a function: the answer of
`findFriendship` may be out of date when `createFriendRequest` runs.

The columns `user_low_id` and `user_high_id` are filled by the repository, not by
the server; that they are the two users of the row in order is not a constraint of
the schema (`FriendshipEntry.Ordered`).
-/

namespace ChatServer.Db

open Base

/-- `OrderedPair`. -/
def orderedPair (userA userB : UserId) : UserId × UserId := (min userA userB, max userA userB)

/-- Two pairs are the same unordered pair. -/
theorem orderedPair_eq_iff {a b c d : UserId} :
    orderedPair a b = orderedPair c d ↔ (a = c ∧ b = d) ∨ (a = d ∧ b = c) := by
  unfold orderedPair
  rw [Prod.mk.injEq]
  constructor
  · rintro ⟨hmin, hmax⟩
    rcases le_total a b with hab | hab <;> rcases le_total c d with hcd | hcd
    · rw [min_eq_left hab, min_eq_left hcd] at hmin
      rw [max_eq_right hab, max_eq_right hcd] at hmax
      exact .inl ⟨hmin, hmax⟩
    · rw [min_eq_left hab, min_eq_right hcd] at hmin
      rw [max_eq_right hab, max_eq_left hcd] at hmax
      exact .inr ⟨hmin, hmax⟩
    · rw [min_eq_right hab, min_eq_left hcd] at hmin
      rw [max_eq_left hab, max_eq_right hcd] at hmax
      exact .inr ⟨hmax, hmin⟩
    · rw [min_eq_right hab, min_eq_right hcd] at hmin
      rw [max_eq_left hab, max_eq_left hcd] at hmax
      exact .inl ⟨hmax, hmin⟩
  · rintro (⟨rfl, rfl⟩ | ⟨rfl, rfl⟩)
    · exact ⟨rfl, rfl⟩
    · exact ⟨min_comm _ _, max_comm _ _⟩

/-- A row of `friendships` with all its columns. -/
structure FriendshipEntry extends FriendshipRow where
  userLowId : UserId
  userHighId : UserId
  deriving DecidableEq, Repr

namespace FriendshipEntry

/-- The unique key `uk_friendships_pair`. -/
def pair (f : FriendshipEntry) : UserId × UserId := (f.userLowId, f.userHighId)

/-- The row is one of `user`. -/
def Of (f : FriendshipEntry) (user : UserId) : Prop := f.requesterId = user ∨ f.addresseeId = user

/-- The key holds the two users of the row. -/
def Ordered (f : FriendshipEntry) : Prop := f.pair = orderedPair f.requesterId f.addresseeId

section

variable (hit : FriendshipEntry → Bool) (status : FriendshipStatus) (now : Timestamp)
  (f : FriendshipEntry)

/-- The row with another status, if it meets a condition; `updated_at` follows by
itself. -/
def update : FriendshipEntry := if hit f then { f with status, updatedAt := now } else f

theorem update_id : (update hit status now f).id = f.id := by
  unfold update
  split <;> rfl

theorem update_pair : (update hit status now f).pair = f.pair := by
  unfold update
  split <;> rfl

theorem update_requesterId : (update hit status now f).requesterId = f.requesterId := by
  unfold update
  split <;> rfl

theorem update_addresseeId : (update hit status now f).addresseeId = f.addresseeId := by
  unfold update
  split <;> rfl

end

end FriendshipEntry

/-- The tables `users` and `friendships` with the constraints of the schema. -/
structure FriendStore where
  users : List Account
  rows : List FriendshipEntry
  users_nodup : (users.map Account.id).Nodup
  requester_exists : ∀ f ∈ rows, f.requesterId ∈ users.map Account.id
  addressee_exists : ∀ f ∈ rows, f.addresseeId ∈ users.map Account.id
  not_self : ∀ f ∈ rows, f.requesterId ≠ f.addresseeId
  pair_order : ∀ f ∈ rows, f.userLowId < f.userHighId
  id_nodup : (rows.map fun f => f.id).Nodup
  pair_nodup : (rows.map FriendshipEntry.pair).Nodup

namespace FriendStore

/-- `listFriendships` reads these tables. -/
def tables (t : FriendStore) : FriendTables where
  users := t.users
  friendships := t.rows.map FriendshipEntry.toFriendshipRow
  users_nodup := t.users_nodup
  requester_exists f hf := by
    obtain ⟨row, hrow, rfl⟩ := List.mem_map.mp hf
    exact t.requester_exists row hrow
  addressee_exists f hf := by
    obtain ⟨row, hrow, rfl⟩ := List.mem_map.mp hf
    exact t.addressee_exists row hrow

variable {t : FriendStore} {f : FriendshipEntry}

/-- Two rows with one key are one row. -/
theorem eq_of_pair {g : FriendshipEntry} (hf : f ∈ t.rows) (hg : g ∈ t.rows) (h : f.pair = g.pair) :
    f = g := List.inj_on_of_nodup_map t.pair_nodup hf hg h

/-! ## The statements -/

def checkViolatedError : Nat := 3819
def noReferencedRowError : Nat := 1452

/-- `INSERT INTO friendships`: the new table, or the error number of the constraint
the row violates. -/
def insert (t : FriendStore) (f : FriendshipEntry) : Except Nat FriendStore :=
  if hself : f.requesterId = f.addresseeId then .error checkViolatedError
  else if horder : f.userLowId < f.userHighId then
    if hkey : f.id ∈ t.rows.map (fun f => f.id) ∨ f.pair ∈ t.rows.map FriendshipEntry.pair then
      .error duplicateEntryError
    else if huser : f.requesterId ∈ t.users.map Account.id ∧
        f.addresseeId ∈ t.users.map Account.id then
      .ok
        { users := t.users
          rows := f :: t.rows
          users_nodup := t.users_nodup
          requester_exists := List.forall_mem_cons.mpr ⟨huser.1, t.requester_exists⟩
          addressee_exists := List.forall_mem_cons.mpr ⟨huser.2, t.addressee_exists⟩
          not_self := List.forall_mem_cons.mpr ⟨hself, t.not_self⟩
          pair_order := List.forall_mem_cons.mpr ⟨horder, t.pair_order⟩
          id_nodup := List.nodup_cons.mpr ⟨fun h => hkey (.inl h), t.id_nodup⟩
          pair_nodup := List.nodup_cons.mpr ⟨fun h => hkey (.inr h), t.pair_nodup⟩ }
    else .error noReferencedRowError
  else .error checkViolatedError

/-- `UPDATE friendships SET status=?`, for the rows that meet a condition. -/
def setStatus (t : FriendStore) (hit : FriendshipEntry → Bool) (status : FriendshipStatus)
    (now : Timestamp) : FriendStore where
  users := t.users
  rows := t.rows.map (FriendshipEntry.update hit status now)
  users_nodup := t.users_nodup
  requester_exists := List.forall_mem_map.mpr fun f hf => by
    rw [FriendshipEntry.update_requesterId]
    exact t.requester_exists f hf
  addressee_exists := List.forall_mem_map.mpr fun f hf => by
    rw [FriendshipEntry.update_addresseeId]
    exact t.addressee_exists f hf
  not_self := List.forall_mem_map.mpr fun f hf => by
    rw [FriendshipEntry.update_requesterId, FriendshipEntry.update_addresseeId]
    exact t.not_self f hf
  pair_order := List.forall_mem_map.mpr fun f hf => by
    have hpair := Prod.mk.inj (FriendshipEntry.update_pair hit status now f)
    rw [hpair.1, hpair.2]
    exact t.pair_order f hf
  id_nodup := by
    have hids : (fun f => f.id) ∘ FriendshipEntry.update hit status now = fun f => f.id :=
      funext fun f => FriendshipEntry.update_id hit status now f
    rw [List.map_map, hids]
    exact t.id_nodup
  pair_nodup := by
    have hpairs : FriendshipEntry.pair ∘ FriendshipEntry.update hit status now =
        FriendshipEntry.pair := funext fun f => FriendshipEntry.update_pair hit status now f
    rw [List.map_map, hpairs]
    exact t.pair_nodup

/-- `DELETE FROM friendships`, but for the rows that meet a condition. -/
def keep (t : FriendStore) (kept : FriendshipEntry → Bool) : FriendStore where
  users := t.users
  rows := t.rows.filter kept
  users_nodup := t.users_nodup
  requester_exists f hf := t.requester_exists f (List.mem_of_mem_filter hf)
  addressee_exists f hf := t.addressee_exists f (List.mem_of_mem_filter hf)
  not_self f hf := t.not_self f (List.mem_of_mem_filter hf)
  pair_order f hf := t.pair_order f (List.mem_of_mem_filter hf)
  id_nodup := t.id_nodup.sublist (List.filter_sublist.map _)
  pair_nodup := t.pair_nodup.sublist (List.filter_sublist.map _)

theorem rows_of_insert {t' : FriendStore} (h : t.insert f = .ok t') : t'.rows = f :: t.rows := by
  unfold insert at h
  split at h
  · cases h
  split at h
  · split at h
    · cases h
    split at h
    · cases h
      rfl
    · cases h
  · cases h

theorem mem_setStatus {hit : FriendshipEntry → Bool} {status : FriendshipStatus} {now : Timestamp} :
    f ∈ (t.setStatus hit status now).rows ↔ ∃ g ∈ t.rows, g.update hit status now = f :=
  List.mem_map

theorem mem_keep {kept : FriendshipEntry → Bool} :
    f ∈ (t.keep kept).rows ↔ f ∈ t.rows ∧ kept f = true := List.mem_filter

end FriendStore

/-- What the repository asks of its connection. A failed statement answers with its
error number, wherever between `Prepare` and `Fetch` it failed. -/
inductive FriendSql : Type → Type 1
  /-- `pool_->borrow()`, with its error -/
  | borrow : FriendSql (Option DbPoolError)
  /-- `WHERE user_low_id=? AND user_high_id=? LIMIT 1` -/
  | selectPair (pair : UserId × UserId) : FriendSql (Except Nat (Option FriendshipRecord))
  /-- `WHERE id=?`, for the value of `LAST_INSERT_ID()` -/
  | selectId (id : Int) : FriendSql (Except Nat (Option FriendshipRecord))
  /-- a row with status `pending`; the connection's `LAST_INSERT_ID()` -/
  | insert (requesterId addresseeId : UserId) (pair : UserId × UserId) : FriendSql (Except Nat Int)
  /-- `SET status='accepted' WHERE requester_id=? AND addressee_id=? AND status='pending'`;
  the number of affected rows -/
  | accept (requesterId addresseeId : UserId) : FriendSql (Except Nat Nat)
  /-- `WHERE user_low_id=? AND user_high_id=?`; the number of affected rows -/
  | deletePair (pair : UserId × UserId) : FriendSql (Except Nat Nat)
  /-- `PooledConnection::markBad` -/
  | markBad : FriendSql Unit

/-! ### On the tables -/

/-- What the server decides about a statement; `id` is the number `AUTO_INCREMENT`
has come to. -/
structure FriendChoice extends SqlChoice where
  id : Int := 0
  now : Timestamp := 0
  deriving DecidableEq, Repr

/-- The record read from a row; status and times fit their buffers. -/
def FriendshipEntry.record (fmt : TimeFormat) (f : FriendshipEntry) : FriendshipRecord where
  requesterId := f.requesterId
  addresseeId := f.addresseeId
  status := f.status
  createdAt := fmt.text f.createdAt
  updatedAt := fmt.text f.updatedAt

/-- The `WHERE` clause of `acceptFriendRequest`. -/
def FriendshipEntry.awaits (requesterId addresseeId : UserId) (f : FriendshipEntry) : Bool :=
  f.requesterId = requesterId ∧ f.addresseeId = addresseeId ∧ f.status = .pending

/-- The row `createFriendRequest` inserts. -/
def requestedEntry (requesterId addresseeId : UserId) (pair : UserId × UserId) (id : Int)
    (now : Timestamp) : FriendshipEntry where
  id := id
  requesterId := requesterId
  addresseeId := addresseeId
  status := .pending
  createdAt := now
  updatedAt := now
  userLowId := pair.1
  userHighId := pair.2

namespace FriendStore

/-- Carry out a statement. -/
def exec (fmt : TimeFormat) (choice : FriendChoice) (t : FriendStore) :
    ∀ {γ : Type}, FriendSql γ → γ × FriendStore
  | _, .borrow => (choice.borrowError, t)
  | _, .selectPair pair =>
    choice.fate.deliver t (.ok ((t.rows.find? (·.pair = pair)).map (·.record fmt), t))
  | _, .selectId id =>
    choice.fate.deliver t (.ok ((t.rows.find? (·.id = id)).map (·.record fmt), t))
  | _, .insert requesterId addresseeId pair =>
    choice.fate.deliver t
      ((t.insert (requestedEntry requesterId addresseeId pair choice.id choice.now)).map
        (choice.id, ·))
  | _, .accept requesterId addresseeId =>
    choice.fate.deliver t
      (.ok (t.rows.countP (·.awaits requesterId addresseeId),
        t.setStatus (·.awaits requesterId addresseeId) .accepted choice.now))
  | _, .deletePair pair =>
    choice.fate.deliver t
      (.ok (t.rows.countP (·.pair = pair), t.keep (·.pair ≠ pair)))
  | _, .markBad => ((), t)

/-- What a statement may do to the tables. -/
def Changes (t t' : FriendStore) : ∀ {γ : Type}, FriendSql γ → Prop
  | _, .insert requesterId addresseeId pair =>
    t' = t ∨ ∃ id now, t.insert (requestedEntry requesterId addresseeId pair id now) = .ok t'
  | _, .accept requesterId addresseeId =>
    t' = t ∨ ∃ now, t' = t.setStatus (·.awaits requesterId addresseeId) .accepted now
  | _, .deletePair pair => t' = t ∨ t' = t.keep (·.pair ≠ pair)
  | _, _ => t' = t

theorem exec_changes (fmt : TimeFormat) (choice : FriendChoice) (t : FriendStore) {γ : Type}
    (op : FriendSql γ) : t.Changes (t.exec fmt choice op).2 op := by
  cases op with
  | borrow => exact rfl
  | selectPair pair =>
    rcases choice.fate.deliver_snd t
      (.ok ((t.rows.find? (·.pair = pair)).map (·.record fmt), t)) with h | ⟨r, h⟩
    · exact h
    · exact (Prod.mk.inj (Except.ok.inj h)).2.symm
  | selectId id =>
    rcases choice.fate.deliver_snd t
      (.ok ((t.rows.find? (·.id = id)).map (·.record fmt), t)) with h | ⟨r, h⟩
    · exact h
    · exact (Prod.mk.inj (Except.ok.inj h)).2.symm
  | insert requesterId addresseeId pair =>
    rcases choice.fate.deliver_snd t
      ((t.insert (requestedEntry requesterId addresseeId pair choice.id choice.now)).map
        (choice.id, ·)) with h | ⟨r, h⟩
    · exact .inl h
    · cases hinsert : t.insert
          (requestedEntry requesterId addresseeId pair choice.id choice.now) with
      | error errno =>
        rw [hinsert] at h
        cases h
      | ok t' =>
        refine .inr ⟨choice.id, choice.now, hinsert.trans (congrArg Except.ok ?_)⟩
        rw [hinsert] at h
        show t' = (choice.fate.deliver t ((t.insert _).map _)).2
        rw [hinsert]
        exact (Prod.mk.inj (Except.ok.inj h)).2
  | accept requesterId addresseeId =>
    rcases choice.fate.deliver_snd t
      (.ok (t.rows.countP (·.awaits requesterId addresseeId),
        t.setStatus (·.awaits requesterId addresseeId) .accepted choice.now)) with h | ⟨r, h⟩
    · exact .inl h
    · exact .inr ⟨choice.now, (Prod.mk.inj (Except.ok.inj h)).2.symm⟩
  | deletePair pair =>
    rcases choice.fate.deliver_snd t
      (.ok (t.rows.countP (·.pair = pair), t.keep (·.pair ≠ pair))) with h | ⟨r, h⟩
    · exact .inl h
    · exact .inr (Prod.mk.inj (Except.ok.inj h)).2.symm
  | markBad => exact rfl

end FriendStore

/-! ### Lists -/

/-- `owner`'s list has a row for `peer`. -/
def FriendTables.Appears (t : FriendTables) (owner peer : UserId) (status : FriendshipStatus)
    (direction : Bytes) : Prop :=
  ∃ row ∈ t.listed owner, row.2.id = peer ∧ row.1.status = status ∧ row.1.direction owner = direction

/-- A list that can be read has the items that appear in it. -/
theorem FriendTables.item_iff_appears {t : FriendTables} {fmt : TimeFormat} {owner : UserId}
    (hok : (listFriendships fmt owner t).status = .ok) (peer : UserId) (status : FriendshipStatus)
    (direction : Bytes) :
    (∃ item ∈ (listFriendships fmt owner t).friends,
        item.userId = peer ∧ item.status = status ∧ item.direction = direction) ↔
      t.Appears owner peer status direction := by
  cases hfetch : fetchAll (listColumns fmt) (listItem fmt owner) (t.listed owner) with
  | none =>
    unfold listFriendships at hok
    rw [hfetch] at hok
    cases hok
  | some friends =>
    have hfriends : (listFriendships fmt owner t).friends = friends := by
      unfold listFriendships
      rw [hfetch]
    rw [hfriends]
    constructor
    · rintro ⟨item, hitem, hpeer, hstatus, hdirection⟩
      obtain ⟨row, hrow, hbuild⟩ := (mem_of_fetchAll hfetch).mp hitem
      rw [listItem_eq] at hbuild
      obtain rfl := Option.some.inj hbuild
      exact ⟨row, hrow, hpeer, hstatus, hdirection⟩
    · rintro ⟨row, hrow, hpeer, hstatus, hdirection⟩
      have hitem := (mem_of_fetchAll hfetch).mpr ⟨row, hrow, listItem_eq fmt owner row⟩
      exact ⟨_, hitem, hpeer, hstatus, hdirection⟩

namespace FriendStore

variable {t : FriendStore} {owner peer : UserId} {status : FriendshipStatus}

/-- What a row of the list comes from. -/
theorem appears_iff_row {direction : Bytes} :
    t.tables.Appears owner peer status direction ↔
      ∃ f ∈ t.rows, f.involves owner = true ∧ f.peer owner = peer ∧ f.status = status ∧
        f.direction owner = direction := by
  constructor
  · rintro ⟨⟨f, a⟩, hrow, hpeer, hstatus, hdirection⟩
    obtain ⟨hf, hinvolves, -, hid⟩ := FriendTables.mem_listed.mp hrow
    obtain ⟨g, hg, rfl⟩ := List.mem_map.mp hf
    exact ⟨g, hg, hinvolves, hid.symm.trans hpeer, hstatus, hdirection⟩
  · rintro ⟨f, hf, hinvolves, hpeer, hstatus, hdirection⟩
    have hmem : f.toFriendshipRow ∈ t.tables.friendships := List.mem_map_of_mem hf
    obtain ⟨a, ha, hid⟩ := List.mem_map.mp (t.tables.peer_exists owner hmem)
    exact ⟨(f.toFriendshipRow, a), FriendTables.mem_listed.mpr ⟨hmem, hinvolves, ha, hid⟩,
      hid.trans hpeer, hstatus, hdirection⟩

theorem outgoing_iff :
    t.tables.Appears owner peer status (str "outgoing") ↔
      ∃ f ∈ t.rows, f.requesterId = owner ∧ f.addresseeId = peer ∧ f.status = status := by
  have hne : str "incoming" ≠ str "outgoing" := by decide
  rw [appears_iff_row]
  constructor
  · rintro ⟨f, hf, -, hpeer, hstatus, hdirection⟩
    unfold FriendshipRow.direction at hdirection
    unfold FriendshipRow.peer at hpeer
    by_cases hreq : f.requesterId = owner
    · rw [if_pos hreq] at hpeer
      exact ⟨f, hf, hreq, hpeer, hstatus⟩
    · rw [if_neg hreq] at hdirection
      exact absurd hdirection hne
  · rintro ⟨f, hf, hreq, haddr, hstatus⟩
    refine ⟨f, hf, decide_eq_true (.inl hreq), ?_, hstatus, if_pos hreq⟩
    exact (if_pos hreq).trans haddr

theorem incoming_iff :
    t.tables.Appears owner peer status (str "incoming") ↔
      ∃ f ∈ t.rows, f.requesterId = peer ∧ f.addresseeId = owner ∧ f.status = status := by
  have hne : str "outgoing" ≠ str "incoming" := by decide
  rw [appears_iff_row]
  constructor
  · rintro ⟨f, hf, hinvolves, hpeer, hstatus, hdirection⟩
    unfold FriendshipRow.direction at hdirection
    unfold FriendshipRow.peer at hpeer
    by_cases hreq : f.requesterId = owner
    · rw [if_pos hreq] at hdirection
      exact absurd hdirection hne
    · rw [if_neg hreq] at hpeer
      have haddr := (of_decide_eq_true hinvolves).resolve_left hreq
      exact ⟨f, hf, hpeer, haddr, hstatus⟩
  · rintro ⟨f, hf, hreq, haddr, hstatus⟩
    -- no row of a user with themselves: the requester is not the owner
    have hnot : f.requesterId ≠ owner := haddr ▸ t.not_self f hf
    exact ⟨f, hf, decide_eq_true (.inr haddr), (if_neg hnot).trans hreq, hstatus, if_neg hnot⟩

end FriendStore

/-! ### The functions -/

namespace FriendRepository

variable {ε : Type}

/-- `ReadFriendship`. -/
def readFriendship (select : FriendSql (Except Nat (Option FriendshipRecord))) :
    Prog FriendSql ε FriendshipResult := do
  match ← Prog.perform select with
  | .ok (some friendship) => return { status := .ok, friendship := some friendship }
  | .ok none => return { status := .notFound }
  | .error errno =>
    let status ← statementFault .markBad errno .queryFailed
    return { status }

/-- `findFriendship`. -/
def findFriendship (userA userB : UserId) : Prog FriendSql ε FriendshipResult := do
  match ← Prog.perform .borrow with
  | some error => return { status := mapBorrowError error }
  | none => readFriendship (.selectPair (orderedPair userA userB))

/-- `createFriendRequest`. -/
def createFriendRequest (requesterId addresseeId : UserId) :
    Prog FriendSql ε FriendshipResult := do
  match ← Prog.perform .borrow with
  | some error => return { status := mapBorrowError error }
  | none =>
    match ← Prog.perform
        (.insert requesterId addresseeId (orderedPair requesterId addresseeId)) with
    | .error errno =>
      let status ← statementFault .markBad errno .insertFailed
      return { status := if errno = duplicateEntryError then .duplicate else status }
    | .ok id => readFriendship (.selectId id)

/-- `acceptFriendRequest`. -/
def acceptFriendRequest (requesterId addresseeId : UserId) :
    Prog FriendSql ε FriendshipResult := do
  match ← Prog.perform .borrow with
  | some error => return { status := mapBorrowError error }
  | none =>
    match ← Prog.perform (.accept requesterId addresseeId) with
    | .error errno =>
      let status ← statementFault .markBad errno .queryFailed
      return { status }
    | .ok affectedRows =>
      if affectedRows ≠ 1 then return { status := .notFound }
      else readFriendship (.selectPair (orderedPair requesterId addresseeId))

/-- `deleteFriendship`. -/
def deleteFriendship (userA userB : UserId) : Prog FriendSql ε UpdateResult := do
  match ← Prog.perform .borrow with
  | some error => return { status := mapBorrowError error }
  | none =>
    match ← Prog.perform (.deletePair (orderedPair userA userB)) with
    | .error errno =>
      let status ← statementFault .markBad errno .queryFailed
      return { status }
    | .ok affectedRows =>
      return { status := if affectedRows = 0 then .notFound else .ok
               affectedRows := toInt32 affectedRows }

end FriendRepository

end ChatServer.Db
