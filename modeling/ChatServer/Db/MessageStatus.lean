import ChatServer.Base.Lts
import ChatServer.Db.Transactions
import Mathlib.Data.List.Perm.Subperm

/-!
# `MessageRepository::markDelivered` and `markRead`

Each call is one `UPDATE` on `messages`, which InnoDB carries out as a whole: it
locks the rows it reads until the statement is committed. Calls of any number of
threads therefore follow one another; the time a call writes was read before its
statement ran, so the times need not be in order.

* `RowStep` — what a call may do to a row;
* `Agrees` — status and timestamps fit together;
* `message_status_forward` — both for every call in every reachable state, and
  what `affected_rows` counts.
-/

namespace ChatServer.Db

open Base

/-- `CanTransitionMessageStatus`. -/
def MessageStatus.canTransition (source target : MessageStatus) : Bool :=
  if source = target then source = .delivered ∨ source = .read
  else if source = .stored then target = .delivered ∨ target = .read
  else source = .delivered ∧ target = .read

/-- A row of `messages`. -/
structure MessageRow where
  id : Bytes
  conversationId : Bytes
  sequence : Int
  clientMsgId : Bytes
  fromUserId : UserId
  toUserId : UserId
  content : Bytes
  status : MessageStatus := .stored
  createdAt : Timestamp
  deliveredAt : Option Timestamp := none
  readAt : Option Timestamp := none
  deriving DecidableEq, Repr

/-- A row as `createMessage` inserts it. -/
def MessageRow.Fresh (m : MessageRow) : Prop :=
  m.status = .stored ∧ m.deliveredAt = none ∧ m.readAt = none

/-! ## The statements -/

/-- `UPDATE messages SET … WHERE …`, with the number of its placeholders. -/
structure MarkStatement where
  hit : MessageRow → Bool
  set : MessageRow → MessageRow
  placeholders : Nat

namespace MarkStatement

variable (st : MarkStatement)

/-- What the statement makes of a row. -/
def row (m : MessageRow) : MessageRow := if st.hit m then st.set m else m

/-- `mysql_stmt_affected_rows`: the rows that were really changed. -/
def affected (rows : List MessageRow) : Nat :=
  rows.countP fun m => st.hit m && st.set m ≠ m

/-- The server prepares no statement with more placeholders than this. -/
def maxPlaceholders : Nat := 65535

def prepares : Bool := st.placeholders ≤ maxPlaceholders

/-- What the server makes of the statement; it does not prepare one with too many
placeholders (`ER_PS_MANY_PARAM`). -/
def effect (rows : List MessageRow) : Except Nat (Nat × List MessageRow) :=
  if st.prepares then .ok (st.affected rows, rows.map st.row) else .error 1390

end MarkStatement

section

variable (coll : Collation) (toUserId : UserId) (messageIds : List Bytes)

/-- `id IN (…) AND to_user_id=?`. -/
def addressed (m : MessageRow) : Bool := coll m.id ∈ messageIds.map coll ∧ m.toUserId = toUserId

/-- The statement of `markDelivered`. -/
def deliveredStatement (now : Timestamp) : MarkStatement where
  hit m := addressed coll toUserId messageIds m && m.status = .stored
  set m := { m with status := .delivered, deliveredAt := some now }
  placeholders := messageIds.length + 4

/-- The statement of `markRead`. -/
def readStatement (now : Timestamp) : MarkStatement where
  hit m := addressed coll toUserId messageIds m && (m.status = .stored ∨ m.status = .delivered)
  set m :=
    { m with
      deliveredAt := some (m.deliveredAt.getD now)
      status := .read
      readAt := some now }
  placeholders := messageIds.length + 6

end

/-- `static_cast<int32_t>`. -/
def toInt32 (n : Nat) : Int := (n : Int).bmod 4294967296

/-- `ExecuteUpdate` of one of the statements on a borrowed connection. -/
def MarkStatement.execute (st : MarkStatement) (choice : SqlChoice) (rows : List MessageRow) :
    UpdateResult × List MessageRow :=
  match choice.borrowError with
  | some error => ({ status := mapBorrowError error }, rows)
  | none =>
    match choice.fate.deliver rows (st.effect rows) with
    | (.ok affected, left) => ({ status := .ok, affectedRows := toInt32 affected }, left)
    | (.error errno, left) => ({ status := failureStatus errno .queryFailed }, left)

/-- A call of `markDelivered` or `markRead`, with the time it read. -/
structure MarkCall where
  read : Bool
  toUserId : UserId
  messageIds : List Bytes
  now : Timestamp
  choice : SqlChoice := {}
  deriving DecidableEq, Repr

/-- The call's statement. -/
def MarkCall.statement (coll : Collation) (c : MarkCall) : MarkStatement :=
  if c.read then readStatement coll c.toUserId c.messageIds c.now
  else deliveredStatement coll c.toUserId c.messageIds c.now

/-- The call: its result and the rows it leaves. -/
def MarkCall.run (coll : Collation) (c : MarkCall) (rows : List MessageRow) :
    UpdateResult × List MessageRow :=
  if c.messageIds = [] then ({ status := .ok }, rows)
  else (c.statement coll).execute c.choice rows

/-- The table under calls of any number of threads, from freshly created messages
with different ids. -/
def messagesLts (coll : Collation) : Lts (List MessageRow) MarkCall where
  Init rows := (∀ m ∈ rows, m.Fresh) ∧ (rows.map fun m => coll m.id).Nodup
  step rows c := some (c.run coll rows).2

/-! ## One statement -/

theorem mapBorrowError_ne_ok (error : DbPoolError) : mapBorrowError error ≠ .ok := by
  unfold mapBorrowError
  split <;> exact nofun

theorem failureStatus_ne_ok {fallback : RepositoryStatus} (h : fallback ≠ .ok) (errno : Nat) :
    failureStatus errno fallback ≠ .ok := by
  unfold failureStatus
  split
  · exact nofun
  · exact h

/-- A statement that fails reports no rows, whether or not it is carried out; one that
succeeds is prepared and carried out. -/
theorem MarkStatement.execute_cases (st : MarkStatement) (choice : SqlChoice)
    (rows : List MessageRow) :
    ((st.execute choice rows).1.status ≠ .ok ∧ (st.execute choice rows).1.affectedRows = 0 ∧
        ((st.execute choice rows).2 = rows ∨ (st.execute choice rows).2 = rows.map st.row)) ∨
      st.prepares = true ∧ st.execute choice rows =
        ({ status := .ok, affectedRows := toInt32 (st.affected rows) }, rows.map st.row) := by
  have hfailed := @failureStatus_ne_ok .queryFailed nofun
  obtain ⟨borrowError, fate⟩ := choice
  cases borrowError with
  | some error => exact .inl ⟨mapBorrowError_ne_ok error, rfl, .inl rfl⟩
  | none =>
    unfold execute effect
    by_cases hprepares : st.prepares = true
    · rw [if_pos hprepares]
      cases fate with
      | answered => exact .inr ⟨hprepares, rfl⟩
      | refused errno | aborted errno => exact .inl ⟨hfailed errno, rfl, .inl rfl⟩
      | unanswered errno => exact .inl ⟨hfailed errno, rfl, .inr rfl⟩
    · rw [if_neg hprepares]
      cases fate with
      | answered => exact .inl ⟨nofun, rfl, .inl rfl⟩
      | refused errno | aborted errno | unanswered errno =>
        exact .inl ⟨hfailed errno, rfl, .inl rfl⟩

/-! ## One row -/

/-- Status and timestamps fit together. -/
structure MessageRow.Agrees (m : MessageRow) : Prop where
  stored : m.status = .stored ↔ m.deliveredAt = none ∧ m.readAt = none
  delivered : m.status = .delivered ↔ m.deliveredAt.isSome = true ∧ m.readAt = none
  read : m.status = .read ↔ m.deliveredAt.isSome = true ∧ m.readAt.isSome = true

/-- What a call for `toUserId` may do to a row. -/
structure RowStep (toUserId : UserId) (m m' : MessageRow) : Prop where
  transition : m.status ≠ m'.status → m.status.canTransition m'.status = true
  deliveredAt : ∀ t, m.deliveredAt = some t → m'.deliveredAt = some t
  readAt : ∀ t, m.readAt = some t → m'.readAt = some t
  foreign : m.toUserId ≠ toUserId → m' = m
  columns : { m' with status := m.status, deliveredAt := m.deliveredAt, readAt := m.readAt } = m

theorem MessageRow.Fresh.agrees {m : MessageRow} (h : m.Fresh) : m.Agrees := by
  obtain ⟨hstatus, hdelivered, hread⟩ := h
  constructor
  · simp [hstatus, hdelivered, hread]
  · simp [hstatus, hdelivered]
  · simp [hstatus, hdelivered]

namespace RowStep

variable {u : UserId} {m m' : MessageRow}

theorem refl (u : UserId) (m : MessageRow) : RowStep u m m :=
  ⟨fun h => absurd rfl h, fun _ h => h, fun _ h => h, fun _ => rfl, rfl⟩

theorem id_eq (h : RowStep u m m') : m'.id = m.id := by
  have hcolumns := congrArg MessageRow.id h.columns
  exact hcolumns

/-- What a call looks for apart from the status stays. -/
theorem addressed_eq (h : RowStep u m m') (coll : Collation) (v : UserId) (ids : List Bytes) :
    addressed coll v ids m' = addressed coll v ids m := by
  have htoUserId : m'.toUserId = m.toUserId := by
    have hcolumns := congrArg MessageRow.toUserId h.columns
    exact hcolumns
  unfold addressed
  rw [h.id_eq, htoUserId]

/-- No call brings a message back to `stored`. -/
theorem stored_of_stored (h : RowStep u m m') (hm : m'.status = .stored) : m.status = .stored := by
  by_contra hne
  have hallowed := h.transition (by rw [hm]; exact hne)
  rw [hm] at hallowed
  revert hallowed hne
  cases m.status <;> decide

/-- A read message stays read. -/
theorem unread_of_unread (h : RowStep u m m') (hm : m'.status ≠ .read) : m.status ≠ .read := by
  intro hread
  have hallowed := h.transition (by rw [hread]; exact Ne.symm hm)
  rw [hread] at hallowed
  revert hallowed hm
  cases m'.status <;> decide

end RowStep

/-! ## One call -/

namespace MarkCall

variable {coll : Collation} {c : MarkCall} {m : MessageRow} {rows : List MessageRow}

theorem statement_delivered (h : c.read = false) :
    c.statement coll = deliveredStatement coll c.toUserId c.messageIds c.now := by
  unfold statement
  rw [h]
  rfl

theorem statement_read (h : c.read = true) :
    c.statement coll = readStatement coll c.toUserId c.messageIds c.now := by
  unfold statement
  rw [h]
  rfl

/-- The rows a statement changes are among those its call names. -/
theorem addressed_of_hit (h : (c.statement coll).hit m = true) :
    addressed coll c.toUserId c.messageIds m = true := by
  cases hread : c.read with
  | false =>
    rw [statement_delivered hread] at h
    exact (Bool.and_eq_true_iff.mp h).1
  | true =>
    rw [statement_read hread] at h
    exact (Bool.and_eq_true_iff.mp h).1

/-- A row that is hit gets another status, and keeps what the step may not touch. -/
theorem set_of_hit (hm : m.Agrees) (h : (c.statement coll).hit m = true) :
    let m' := (c.statement coll).set m
    m.status ≠ m'.status ∧ m'.Agrees ∧ RowStep c.toUserId m m' := by
  have hown : m.toUserId = c.toUserId := (decide_eq_true_eq.mp (addressed_of_hit h)).2
  cases hread : c.read with
  | false =>
    rw [statement_delivered hread] at h ⊢
    have hstored : m.status = .stored := by
      simpa using (Bool.and_eq_true_iff.mp h).2
    obtain ⟨hdelivered, hunread⟩ := hm.stored.mp hstored
    refine ⟨by rw [hstored]; exact nofun, ?_, ?_⟩
    · constructor <;> simp [deliveredStatement, hunread]
    · refine ⟨fun _ => by rw [hstored]; rfl, ?_, fun _ h => h, fun h => absurd hown h, rfl⟩
      intro t ht
      rw [hdelivered] at ht
      cases ht
  | true =>
    rw [statement_read hread] at h ⊢
    -- a message may be read without having been marked as delivered
    have hopen : m.status = .stored ∨ m.status = .delivered := by
      simpa using (Bool.and_eq_true_iff.mp h).2
    have hunread : m.readAt = none := by
      rcases hopen with hstored | hdelivered
      · exact (hm.stored.mp hstored).2
      · exact (hm.delivered.mp hdelivered).2
    refine ⟨?_, ?_, ?_⟩
    · rcases hopen with h | h <;> rw [h] <;> exact nofun
    · constructor <;> simp [readStatement]
    · refine ⟨fun _ => ?_, ?_, ?_, fun h => absurd hown h, rfl⟩
      · rcases hopen with h | h <;> rw [h] <;> rfl
      · intro t ht
        show some (m.deliveredAt.getD c.now) = some t
        rw [ht]
        rfl
      · intro t ht
        rw [hunread] at ht
        cases ht

theorem row_step (hm : m.Agrees) :
    ((c.statement coll).row m).Agrees ∧ RowStep c.toUserId m ((c.statement coll).row m) := by
  unfold MarkStatement.row
  split
  next h => exact (set_of_hit hm h).2
  next => exact ⟨hm, .refl _ _⟩

/-- The statement changes a row exactly if its status changes. -/
theorem changes_iff (c : MarkCall) (coll : Collation) (hm : m.Agrees) :
    ((c.statement coll).hit m && (c.statement coll).set m ≠ m) =
      decide (m.status ≠ ((c.statement coll).row m).status) := by
  unfold MarkStatement.row
  cases h : (c.statement coll).hit m with
  | false => simp
  | true =>
    have hne := (set_of_hit hm h).1
    have hset : (c.statement coll).set m ≠ m := fun heq => hne (by rw [heq])
    simp [hset, hne]

/-- A call leaves the table, or sends every row through its statement. -/
theorem run_cases (coll : Collation) (c : MarkCall) (rows : List MessageRow) :
    (c.run coll rows).2 = rows ∨ (c.run coll rows).2 = rows.map (c.statement coll).row := by
  unfold run
  split
  · exact .inl rfl
  · rcases (c.statement coll).execute_cases c.choice rows with ⟨-, -, h⟩ | ⟨-, h⟩
    · exact h
    · exact .inr (congrArg Prod.snd h)

/-- What a call does to the rows of a table. -/
theorem run_step (hrows : ∀ m ∈ rows, m.Agrees) :
    List.Forall₂ (RowStep c.toUserId) rows (c.run coll rows).2 := by
  rcases run_cases coll c rows with h | h
  · rw [h]
    exact List.forall₂_same.mpr fun m _ => .refl _ _
  · rw [h, List.forall₂_map_right_iff]
    exact List.forall₂_same.mpr fun m hm => (row_step (hrows m hm)).2

theorem run_agrees (hrows : ∀ m ∈ rows, m.Agrees) : ∀ m ∈ (c.run coll rows).2, m.Agrees := by
  rcases run_cases coll c rows with h | h
  · rw [h]
    exact hrows
  · rw [h]
    intro m' hm'
    obtain ⟨m, hm, rfl⟩ := List.mem_map.mp hm'
    exact (row_step (hrows m hm)).1

end MarkCall

/-! ## The table -/

/-- The invariant: every row agrees, and the primary key. -/
structure Consistent (coll : Collation) (rows : List MessageRow) : Prop where
  agrees : ∀ m ∈ rows, m.Agrees
  nodup : (rows.map fun m => coll m.id).Nodup

section

variable {coll : Collation} {rows rows' : List MessageRow} {u : UserId}

theorem ids_eq_of_step (h : List.Forall₂ (RowStep u) rows rows') :
    (rows'.map fun m => coll m.id) = rows.map fun m => coll m.id := by
  induction h with
  | nil => rfl
  | cons hstep _ ih => rw [List.map_cons, List.map_cons, hstep.id_eq, ih]

theorem consistent_run (h : Consistent coll rows) (c : MarkCall) :
    Consistent coll (c.run coll rows).2 := by
  refine ⟨MarkCall.run_agrees h.agrees, ?_⟩
  rw [ids_eq_of_step (MarkCall.run_step (c := c) h.agrees)]
  exact h.nodup

theorem consistent_inductive (coll : Collation) :
    (messagesLts coll).Inductive (fun _ _ => True) (Consistent coll) where
  init rows hinit := ⟨fun m hm => (hinit.1 m hm).agrees, hinit.2⟩
  step rows c rows' h _ hstep := by
    obtain rfl := Option.some.inj hstep
    exact consistent_run h c

/-- The messages whose status differs between two tables with the same rows. -/
def changed (rows rows' : List MessageRow) : List MessageRow :=
  ((rows.zip rows').filter fun p => p.1.status ≠ p.2.status).map Prod.fst

theorem changed_self (rows : List MessageRow) : changed rows rows = [] := by
  induction rows with
  | nil => rfl
  | cons m rest ih => simpa [changed] using ih

theorem changed_sublist (rows rows' : List MessageRow) : (changed rows rows').Sublist rows := by
  induction rows generalizing rows' with
  | nil => exact .slnil
  | cons m rest ih =>
    cases rows' with
    | nil => exact List.nil_sublist _
    | cons m' rest' =>
      by_cases h : m.status = m'.status
      · have hskip : changed (m :: rest) (m' :: rest') = changed rest rest' := by
          simp [changed, h]
        rw [hskip]
        exact (ih rest').cons m
      · have htake : changed (m :: rest) (m' :: rest') = m :: changed rest rest' := by
          simp [changed, h]
        rw [htake]
        exact (ih rest').cons_cons m

variable {c : MarkCall}

/-- The server counts the messages whose status changed. -/
theorem affected_eq (hrows : ∀ m ∈ rows, m.Agrees) :
    (c.statement coll).affected rows =
      (changed rows (rows.map (c.statement coll).row)).length := by
  induction rows with
  | nil => rfl
  | cons m rest ih =>
    have hchange := c.changes_iff coll (hrows m List.mem_cons_self)
    have hrest := ih fun m' hm' => hrows m' (List.mem_cons_of_mem _ hm')
    unfold MarkStatement.affected at hrest ⊢
    rw [List.countP_cons, hrest, hchange]
    by_cases h : m.status = ((c.statement coll).row m).status
    · simp [changed, ← h]
    · simp [changed, h]

/-- No more rows are hit than ids were given: ids are a primary key. -/
theorem affected_le (h : Consistent coll rows) :
    (c.statement coll).affected rows ≤ c.messageIds.length := by
  let hits := rows.filter fun m => (c.statement coll).hit m && (c.statement coll).set m ≠ m
  have hnodup : (hits.map fun m => coll m.id).Nodup :=
    h.nodup.sublist (List.filter_sublist.map _)
  have hsubset : (hits.map fun m => coll m.id) ⊆ c.messageIds.map coll := by
    intro key hkey
    obtain ⟨m, hm, rfl⟩ := List.mem_map.mp hkey
    have hhit := (Bool.and_eq_true_iff.mp (List.mem_filter.mp hm).2).1
    exact (decide_eq_true_eq.mp (MarkCall.addressed_of_hit hhit)).1
  have hlength := (hnodup.subperm hsubset).length_le
  rw [List.length_map, List.length_map] at hlength
  rw [MarkStatement.affected, List.countP_eq_length_filter]
  exact hlength

theorem toInt32_of_le {n : Nat} (h : n ≤ MarkStatement.maxPlaceholders) : toInt32 n = n := by
  have hn : n ≤ 65535 := h
  unfold toInt32
  rw [Int.bmod_eq_of_le] <;> omega

/-- Every statement has more placeholders than ids. -/
theorem length_le_placeholders (coll : Collation) (c : MarkCall) :
    c.messageIds.length ≤ (c.statement coll).placeholders := by
  unfold MarkCall.statement
  split
  · exact Nat.le_add_right _ _
  · exact Nat.le_add_right _ _

/-- What the result says about a statement that was carried out. -/
theorem affectedRows_answered (h : Consistent coll rows)
    (hprepares : (c.statement coll).prepares = true) :
    toInt32 ((c.statement coll).affected rows) =
      (changed rows (rows.map (c.statement coll).row)).length := by
  have hplaceholders := length_le_placeholders coll c
  have hmax : (c.statement coll).placeholders ≤ MarkStatement.maxPlaceholders := by
    unfold MarkStatement.prepares at hprepares
    exact of_decide_eq_true hprepares
  have hle := affected_le (c := c) h
  rw [toInt32_of_le (hle.trans (hplaceholders.trans hmax)), affected_eq h.agrees]

/-- A successful call was answered by a server that carried out its statement. -/
theorem run_of_ok (hids : c.messageIds ≠ []) (hok : (c.run coll rows).1.status = .ok) :
    (c.statement coll).prepares = true ∧
      c.run coll rows =
        ({ status := .ok, affectedRows := toInt32 ((c.statement coll).affected rows) },
          rows.map (c.statement coll).row) := by
  unfold MarkCall.run at hok ⊢
  rw [if_neg hids] at hok ⊢
  exact ((c.statement coll).execute_cases c.choice rows).resolve_left fun h => h.1 hok

/-- A failed call reports 0. -/
theorem affectedRows_of_failed (hfailed : (c.run coll rows).1.status ≠ .ok) :
    (c.run coll rows).1.affectedRows = 0 := by
  unfold MarkCall.run at hfailed ⊢
  split
  · rfl
  next hids =>
    rw [if_neg hids] at hfailed
    rcases (c.statement coll).execute_cases c.choice rows with ⟨-, hzero, -⟩ | ⟨-, hdone⟩
    · exact hzero
    · exact absurd (congrArg (fun p => p.1.status) hdone) hfailed

theorem run_nil (h : c.messageIds = []) : c.run coll rows = ({ status := .ok }, rows) := by
  unfold MarkCall.run
  rw [if_pos h]

/-- `affected_rows` is the number of messages whose status changed, unless the
answer did not arrive. -/
theorem affectedRows_eq (h : Consistent coll rows)
    (hdone : (c.run coll rows).1.status = .ok ∨ (c.run coll rows).2 = rows) :
    (c.run coll rows).1.affectedRows = (changed rows (c.run coll rows).2).length := by
  have hself : (0 : Int) = (changed rows rows).length := by
    rw [changed_self]
    rfl
  by_cases hids : c.messageIds = []
  · rw [run_nil hids]
    exact hself
  by_cases hok : (c.run coll rows).1.status = .ok
  · obtain ⟨hprepares, hrun⟩ := run_of_ok hids hok
    rw [hrun]
    dsimp only
    exact affectedRows_answered h hprepares
  · rw [affectedRows_of_failed hok, hdone.resolve_left hok]
    exact hself

/-! ## Repeating a call -/

/-- The statements of the call hit no row. -/
def Quiet (coll : Collation) (c : MarkCall) (rows : List MessageRow) : Prop :=
  ∀ m ∈ rows, (c.statement coll).hit m = false

/-- A call with the same arguments at another time. -/
def MarkCall.again (c : MarkCall) (now : Timestamp) (choice : SqlChoice) : MarkCall :=
  { c with now, choice }

theorem hit_again (coll : Collation) (c : MarkCall) (now : Timestamp) (choice : SqlChoice) :
    ((c.again now choice).statement coll).hit = (c.statement coll).hit := by
  unfold MarkCall.statement
  cases h : c.read with
  | false =>
    have hagain : (c.again now choice).read = false := h
    rw [hagain]
    rfl
  | true =>
    have hagain : (c.again now choice).read = true := h
    rw [hagain]
    rfl

/-- What is hit after a step was hit before. -/
theorem hit_of_step {m m' : MessageRow} (hstep : RowStep u m m')
    (h : (c.statement coll).hit m' = true) : (c.statement coll).hit m = true := by
  have haddressed := MarkCall.addressed_of_hit h
  rw [hstep.addressed_eq] at haddressed
  cases hread : c.read with
  | false =>
    rw [MarkCall.statement_delivered hread] at h ⊢
    have hstored : m'.status = .stored := by simpa using (Bool.and_eq_true_iff.mp h).2
    exact Bool.and_eq_true_iff.mpr ⟨haddressed, decide_eq_true (hstep.stored_of_stored hstored)⟩
  | true =>
    rw [MarkCall.statement_read hread] at h ⊢
    have hopen : m'.status = .stored ∨ m'.status = .delivered := by
      simpa using (Bool.and_eq_true_iff.mp h).2
    have hunread : m.status ≠ .read := hstep.unread_of_unread (by
      rcases hopen with h | h <;> rw [h] <;> exact nofun)
    refine Bool.and_eq_true_iff.mpr ⟨haddressed, decide_eq_true ?_⟩
    revert hunread
    cases m.status <;> simp

theorem quiet_of_step (h : List.Forall₂ (RowStep u) rows rows') (hquiet : Quiet coll c rows) :
    Quiet coll c rows' := by
  intro m' hm'
  obtain ⟨m, hm, hstep⟩ : ∃ m ∈ rows, RowStep u m m' := by
    induction h with
    | nil => cases hm'
    | @cons a b l l' hab _ ih =>
      rcases List.mem_cons.mp hm' with rfl | hm'
      · exact ⟨a, List.mem_cons_self, hab⟩
      · obtain ⟨m, hm, hstep⟩ := ih (fun m hm => hquiet m (List.mem_cons_of_mem _ hm)) hm'
        exact ⟨m, List.mem_cons_of_mem _ hm, hstep⟩
  by_contra hhit
  have hbefore := hit_of_step hstep (Bool.eq_true_of_not_eq_false hhit)
  rw [hquiet m hm] at hbefore
  cases hbefore

/-- A row that has been through the statement is not hit again. -/
theorem hit_row (coll : Collation) (c : MarkCall) (m : MessageRow) :
    (c.statement coll).hit ((c.statement coll).row m) = false := by
  unfold MarkStatement.row
  split
  next h =>
    unfold MarkCall.statement at h ⊢
    split
    · simp [readStatement]
    · simp [deliveredStatement]
  next h => exact Bool.eq_false_of_not_eq_true h

/-- Right after a successful call its statement hits nothing. -/
theorem quiet_of_ok (hids : c.messageIds ≠ []) (hok : (c.run coll rows).1.status = .ok) :
    Quiet coll c (c.run coll rows).2 := by
  rw [(run_of_ok hids hok).2]
  intro m' hm'
  obtain ⟨m, hm, rfl⟩ := List.mem_map.mp hm'
  exact hit_row coll c m

/-- Other calls keep it so. -/
theorem quiet_run {calls : List MarkCall} (h : Consistent coll rows) (hquiet : Quiet coll c rows)
    (hrun : (messagesLts coll).run rows calls = some rows') : Quiet coll c rows' := by
  induction calls generalizing rows with
  | nil =>
    obtain rfl := Option.some.inj hrun
    exact hquiet
  | cons call rest ih =>
    exact ih (consistent_run h call) (quiet_of_step (MarkCall.run_step h.agrees) hquiet) hrun

/-- A call whose statement hits nothing reports 0. -/
theorem affectedRows_of_quiet (hids : c.messageIds ≠ []) (hquiet : Quiet coll c rows)
    (now : Timestamp) (choice : SqlChoice) :
    ((c.again now choice).run coll rows).1.affectedRows = 0 := by
  by_cases hok : ((c.again now choice).run coll rows).1.status = .ok
  · have hnone : ((c.again now choice).statement coll).affected rows = 0 := by
      refine List.countP_eq_zero.mpr fun m hm => ?_
      rw [hit_again, hquiet m hm]
      exact Bool.false_ne_true
    rw [(run_of_ok (c := c.again now choice) hids hok).2, hnone]
    rfl
  · exact affectedRows_of_failed hok

end

/-- In every state reachable from freshly created messages, whatever calls ran and
whatever became of them: status and timestamps of every message agree; the next
call moves each status forward or not at all, keeps set timestamps, the messages
of other users and the other columns; its `affected_rows` is the number of
messages whose status changed (they are different messages), also if the call
failed without effect; and once it was successful, the same call reports 0, right
away or after any other calls. -/
theorem message_status_forward {coll : Collation} {rows : List MessageRow}
    (hreach : (messagesLts coll).Reachable rows) (c : MarkCall) :
    (∀ m ∈ rows, m.Agrees) ∧
      List.Forall₂ (RowStep c.toUserId) rows (c.run coll rows).2 ∧
      ((c.run coll rows).1.status = .ok ∨ (c.run coll rows).2 = rows →
        (c.run coll rows).1.affectedRows = (changed rows (c.run coll rows).2).length) ∧
      ((changed rows (c.run coll rows).2).map fun m => coll m.id).Nodup ∧
      ((c.run coll rows).1.status = .ok → ∀ (calls : List MarkCall) (rows' : List MessageRow),
        (messagesLts coll).run (c.run coll rows).2 calls = some rows' →
        ∀ now choice, ((c.again now choice).run coll rows').1.affectedRows = 0) := by
  have h := (consistent_inductive coll).invariant hreach
  refine ⟨h.agrees, MarkCall.run_step h.agrees, affectedRows_eq h,
    h.nodup.sublist ((changed_sublist _ _).map _), ?_⟩
  intro hok calls rows' hrun now choice
  by_cases hids : c.messageIds = []
  · rw [run_nil (c := c.again now choice) hids]
  · exact affectedRows_of_quiet hids
      (quiet_run (consistent_run h c) (quiet_of_ok hids hok) hrun) now choice

/-- A message that was read before it was acknowledged. -/
def letter : MessageRow :=
  { id := str "m1", conversationId := str "c", sequence := 1, clientMsgId := str "k"
    fromUserId := 1, toUserId := 2, content := str "hi", createdAt := 10 }

/-- Reading it twice, with the id given twice: the second call reports 0, also
after an acknowledgement in between. -/
theorem message_status_forward_letter :
    let c : MarkCall := ⟨true, 2, [str "m1", str "m1", str "m9"], 20, {}⟩
    (c.run id [letter]).1 = { status := .ok, affectedRows := 1 } ∧
      ((c.again 30 {}).run id
        (((MarkCall.mk false 2 [str "m1"] 25 {}).run id
          (c.run id [letter]).2)).2).1.affectedRows = 0 := by
  have hreach : (messagesLts id).Reachable [letter] :=
    .init ⟨fun m hm => by rw [List.mem_singleton.mp hm]; exact ⟨rfl, rfl, rfl⟩,
      List.nodup_singleton _⟩
  obtain ⟨-, -, -, -, hagain⟩ := message_status_forward hreach
    ⟨true, 2, [str "m1", str "m1", str "m9"], 20, {}⟩
  exact ⟨by decide +kernel, hagain (by decide +kernel) [⟨false, 2, [str "m1"], 25, {}⟩] _
    rfl 30 {}⟩

/-! ## The records that other modules see -/

/-- The row as `Build` gives it, with `NULL` as 0. -/
def MessageRow.record (m : MessageRow) : MessageRecord where
  id := m.id
  conversationId := m.conversationId
  clientMsgId := m.clientMsgId
  sequence := m.sequence
  fromUserId := m.fromUserId
  toUserId := m.toUserId
  content := m.content
  status := m.status
  createdAt := m.createdAt
  deliveredAt := m.deliveredAt.getD 0
  readAt := m.readAt.getD 0

/-- The row of a record; a time of 0 is `NULL`. -/
def MessageRecord.row (m : MessageRecord) : MessageRow where
  id := m.id
  conversationId := m.conversationId
  sequence := m.sequence
  clientMsgId := m.clientMsgId
  fromUserId := m.fromUserId
  toUserId := m.toUserId
  content := m.content
  status := m.status
  createdAt := m.createdAt
  deliveredAt := if m.deliveredAt = 0 then none else some m.deliveredAt
  readAt := if m.readAt = 0 then none else some m.readAt

theorem MessageRecord.record_row (m : MessageRecord) : m.row.record = m := by
  have htime : ∀ t : Timestamp, (if t = 0 then none else some t).getD 0 = t := by
    intro t
    split
    next h => exact h.symm
    next => rfl
  show { m with deliveredAt := (if _ then _ else _ : Option _).getD 0
                readAt := (if _ then _ else _ : Option _).getD 0 } = m
  rw [htime, htime]

end ChatServer.Db
