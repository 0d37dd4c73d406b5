import ChatServer.Base.Fetch
import ChatServer.Base.Keyset
import ChatServer.Db.MessageStatus
import Mathlib.Data.Int.Order.Basic
import Mathlib.Data.List.Lex
import Mathlib.Data.Prod.Lex

/-!
# `MessageRepository::listOfflineMessages` and `markDelivered`

The query behind `pull_offline_messages`: the stored messages of a recipient in
the order of `(created_at, id)`, after the row of the cursor. The key of that
row comes from a subquery, which does not look at the status, so a message that
was acknowledged meanwhile still serves as cursor. One row more than the page is
fetched, to see whether there is more; if one of these rows does not fit its
buffers, the whole call fails.

* `remainingRows` — what the query selects, in its order;
* `listOfflineMessages_of_fits`, `fits_of_listOfflineMessages` — the page, and when
  there is one.
-/

namespace ChatServer.Db

open Base

variable (coll : Collation)

/-- How the server orders a text: by the bytes of its sort key. -/
def sortKey (text : Bytes) : List ℕ := (coll text).map UInt8.toNat

/-- `(created_at, id)`. -/
def MessageRecord.key (m : MessageRecord) : ℤ ×ₗ List ℕ := toLex (m.createdAt, sortKey coll m.id)

/-- The rows `WHERE to_user_id=? AND status=0` selects. -/
def Tables.inbox (t : Tables) (toUserId : UserId) : List MessageRecord :=
  t.messages.filter fun m => m.toUserId = toUserId ∧ m.status = .stored

/-- `SELECT created_at, id FROM messages WHERE id=? AND to_user_id=? LIMIT 1`. -/
def Tables.cursorRow (t : Tables) (toUserId : UserId) (cursor : Bytes) : Option MessageRecord :=
  t.messages.find? fun m => coll m.id = coll cursor ∧ m.toUserId = toUserId

/-- `safe_limit`. -/
def safeLimit (limit : Int) : Nat := (min (if limit > 0 then limit else 20) 100).toNat

/-- The rows the query selects, in its order and before its `LIMIT`. Without a row for
the cursor the comparison is with `NULL`, and no row is selected. -/
def remainingRows (t : Tables) (toUserId : UserId) (cursor : Bytes) : List MessageRecord :=
  let after := fun key => Keyset.remaining (MessageRecord.key coll) key (t.inbox toUserId)
  if cursor = [] then after none
  else
    match t.cursorRow coll toUserId cursor with
    | some row => after (some (row.key coll))
    | none => []

/-- The texts of `MessageResultBuffers` with their buffers. -/
def messageColumns (m : MessageRecord) : List Bound :=
  [⟨m.id, 65⟩, ⟨m.conversationId, 65⟩, ⟨m.clientMsgId, 65⟩, ⟨m.content, 4097⟩]

/-- `listOfflineMessages`, when the statement is carried out. The status of a selected
row is one that `Build` accepts. -/
def listOfflineMessages (t : Tables) (toUserId : UserId) (limit : Int) (cursor : Bytes) :
    ListOfflineMessagesResult :=
  match fetchAll messageColumns some
      ((remainingRows coll t toUserId cursor).take (safeLimit limit + 1)) with
  | none => { status := .queryFailed }
  | some rows =>
    { status := .ok
      messages := rows.take (safeLimit limit)
      hasMore := safeLimit limit < rows.length }

/-- The row after `markDelivered` at `now`. -/
def markRowDelivered (toUserId : UserId) (messageIds : List Bytes) (now : Timestamp)
    (m : MessageRecord) : MessageRecord :=
  ((deliveredStatement coll toUserId messageIds now).row m.row).record

/-- `markDelivered`, when its statement is carried out. -/
def Tables.markDelivered (t : Tables) (toUserId : UserId) (messageIds : List Bytes)
    (now : Timestamp) : Tables :=
  { t with messages := t.messages.map (markRowDelivered coll toUserId messageIds now) }

/-- The primary key of `messages`. -/
def Tables.PrimaryKey (t : Tables) : Prop := (t.messages.map fun m => coll m.id).Nodup

variable {coll} {t : Tables} {u : UserId}

theorem mem_inbox {m : MessageRecord} :
    m ∈ t.inbox u ↔ m ∈ t.messages ∧ m.toUserId = u ∧ m.status = .stored := by
  rw [Tables.inbox, List.mem_filter, decide_eq_true_eq]

theorem fits_messageColumns {m : MessageRecord} :
    fits messageColumns m = true ↔ m.id.length ≤ 65 ∧ m.conversationId.length ≤ 65 ∧
      m.clientMsgId.length ≤ 65 ∧ m.content.length ≤ 4097 := by
  simp [fits_iff, messageColumns]

theorem markRowDelivered_eq (coll : Collation) (u : UserId) (messageIds : List Bytes)
    (now : Timestamp) (m : MessageRecord) :
    markRowDelivered coll u messageIds now m =
      if coll m.id ∈ messageIds.map coll ∧ m.toUserId = u ∧ m.status = .stored then
        { m with status := .delivered, deliveredAt := now }
      else m := by
  have hhit : (deliveredStatement coll u messageIds now).hit m.row = true ↔
      coll m.id ∈ messageIds.map coll ∧ m.toUserId = u ∧ m.status = .stored := by
    simp [deliveredStatement, addressed, and_assoc, MessageRecord.row]
  unfold markRowDelivered MarkStatement.row
  by_cases h : (deliveredStatement coll u messageIds now).hit m.row = true
  · rw [if_pos h, if_pos (hhit.mp h)]
    show { m.row.record with status := .delivered, deliveredAt := now } = _
    rw [m.record_row]
  · rw [if_neg h, if_neg (mt hhit.mpr h), m.record_row]

/-- Nothing is selected, or the rows after some key. -/
theorem remainingRows_cases (coll : Collation) (t : Tables) (u : UserId) (cursor : Bytes) :
    remainingRows coll t u cursor = [] ∨ ∃ after, remainingRows coll t u cursor =
      Keyset.remaining (MessageRecord.key coll) after (t.inbox u) := by
  unfold remainingRows
  dsimp only
  split
  · exact .inr ⟨none, rfl⟩
  · split
    · exact .inr ⟨_, rfl⟩
    · exact .inl rfl

theorem mem_remainingRows {cursor : Bytes} {m : MessageRecord}
    (h : m ∈ remainingRows coll t u cursor) : m ∈ t.inbox u := by
  rcases remainingRows_cases coll t u cursor with hnil | ⟨after, hrows⟩
  · rw [hnil] at h
    cases h
  · rw [hrows] at h
    exact (Keyset.mem_remaining.mp h).1

/-- The page, if the rows that are fetched fit. -/
theorem listOfflineMessages_of_fits {limit : Int} {cursor : Bytes}
    (h : ∀ m ∈ (remainingRows coll t u cursor).take (safeLimit limit + 1),
      fits messageColumns m = true) :
    listOfflineMessages coll t u limit cursor =
      { status := .ok
        messages := (remainingRows coll t u cursor).take (safeLimit limit)
        hasMore := safeLimit limit < (remainingRows coll t u cursor).length } := by
  have hmore : safeLimit limit <
      ((remainingRows coll t u cursor).take (safeLimit limit + 1)).length ↔
        safeLimit limit < (remainingRows coll t u cursor).length := by
    rw [List.length_take]
    omega
  unfold listOfflineMessages
  rw [fetchAll_some h]
  simp only [List.take_take, Nat.min_eq_left (Nat.le_succ _), hmore]

/-- There is a page only if they do. -/
theorem fits_of_listOfflineMessages {limit : Int} {cursor : Bytes}
    (h : (listOfflineMessages coll t u limit cursor).status = .ok) :
    ∀ m ∈ (remainingRows coll t u cursor).take (safeLimit limit + 1),
      fits messageColumns m = true := by
  intro m hm
  by_contra hno
  unfold listOfflineMessages at h
  rw [fetchAll_eq_none_iff.mpr ⟨m, hm, .inl (Bool.eq_false_of_not_eq_true hno)⟩] at h
  cases h

theorem coll_eq_of_key {m m' : MessageRecord} (h : m.key coll = m'.key coll) :
    coll m.id = coll m'.id := by
  have hsort : sortKey coll m.id = sortKey coll m'.id := (Prod.mk.inj (toLex.injective h)).2
  exact List.map_injective_iff.mpr (fun _ _ => UInt8.toNat_inj.mp) hsort

/-- Rows of a table with a primary key have different keys. -/
theorem Tables.PrimaryKey.keyed (h : t.PrimaryKey coll) (u : UserId) :
    Keyset.Keyed (MessageRecord.key coll) (t.inbox u) := by
  have hrows : (t.messages.map (MessageRecord.key coll)).Nodup :=
    List.pairwise_map.mpr ((List.pairwise_map.mp h).imp fun hne heq => hne (coll_eq_of_key heq))
  exact hrows.sublist (List.filter_sublist.map _)

/-- The cursor row of a message's own id is the message. -/
theorem Tables.PrimaryKey.cursorRow (h : t.PrimaryKey coll) {m : MessageRecord}
    (hm : m ∈ t.messages) (hu : m.toUserId = u) : t.cursorRow coll u m.id = some m := by
  have hfind : (t.cursorRow coll u m.id).isSome = true :=
    List.find?_isSome.mpr ⟨m, hm, by simp [hu]⟩
  obtain ⟨row, hrow⟩ := Option.isSome_iff_exists.mp hfind
  have hid : coll row.id = coll m.id ∧ row.toUserId = u := by simpa using List.find?_some hrow
  rw [hrow, List.inj_on_of_nodup_map h (List.mem_of_find?_eq_some hrow) hm hid.1]

end ChatServer.Db
