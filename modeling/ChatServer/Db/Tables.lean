import ChatServer.Base.TwoPhase
import ChatServer.Common.Types

/-!
# The message tables

`conversations`, `conversation_members` and `messages` of
`sql/001_create_chat_tables.sql`, the writes the repositories make to them and
the locks InnoDB takes for those writes. The text columns have the collation
`utf8mb4_unicode_ci`, so every comparison the server makes on them (`WHERE`,
primary and unique keys) goes through a collation key; which bytes it
identifies is left open (`Collation`).
-/

namespace ChatServer.Db

open Base

/-- The sort key of a text column: equal keys are equal for the server. -/
abbrev Collation := Bytes → Bytes

/-- `chat::MessageStatus`, the column `messages.status`. -/
inductive MessageStatus where
  | stored
  | delivered
  | read
  deriving DecidableEq, Repr

/-- `chat::MessageRecord`; a row of `messages` is read into it, with `NULL`
timestamps as 0. -/
structure MessageRecord where
  id : Bytes
  conversationId : Bytes
  clientMsgId : Bytes
  sequence : Int := 0
  fromUserId : UserId
  toUserId : UserId
  content : Bytes
  status : MessageStatus := .stored
  createdAt : Timestamp
  deliveredAt : Timestamp := 0
  readAt : Timestamp := 0
  deriving DecidableEq, Repr

/-- What no later statement changes in a row of `messages`: everything but the
delivery status and its timestamps. -/
def MessageRecord.core (m : MessageRecord) : MessageRecord :=
  { m with status := .stored, deliveredAt := 0, readAt := 0 }

/-- The column `conversations.type`. -/
inductive ConversationType where
  | single
  | group
  deriving DecidableEq, Repr

/-- A row of `conversations`. -/
structure Conversation where
  id : Bytes
  type : ConversationType
  singleChatKey : Option Bytes
  lastSeq : Int := 0
  deriving DecidableEq, Repr

/-- A row of `conversation_members`. -/
structure Member where
  conversationId : Bytes
  userId : UserId
  role : Bytes
  deriving DecidableEq, Repr

/-- The tables; `messages` in the order the rows were committed. -/
structure Tables where
  conversations : List Conversation := []
  members : List Member := []
  messages : List MessageRecord := []
  deriving DecidableEq, Repr

/-- The row changes the repositories make. -/
inductive Write where
  | insertConversation (row : Conversation)
  | insertMember (row : Member)
  /-- `UPDATE conversations SET last_seq=n WHERE id=?` -/
  | setLastSeq (id : Bytes) (n : Int)
  | insertMessage (row : MessageRecord)
  /-- the delivery and read marks of one message -/
  | setStatus (id : Bytes) (status : MessageStatus) (deliveredAt readAt : Timestamp)
  deriving DecidableEq, Repr

/-- What a transaction locks: rows and unique-key entries, by collation key. -/
inductive Lock where
  | conversation (id : Bytes)
  | chatKey (key : Bytes)
  | member (conversationId : Bytes) (userId : UserId)
  | message (id : Bytes)
  | client (fromUserId : UserId) (clientMsgId : Bytes)
  | sequence (conversationId : Bytes) (sequence : Int)
  deriving DecidableEq, Repr

section

variable (coll : Collation)

/-- The conversations `WHERE id=?` selects. -/
def Tables.conversationsWith (t : Tables) (id : Bytes) : List Conversation :=
  t.conversations.filter fun r => coll r.id = coll id

/-- The messages of a conversation. -/
def Tables.messagesOf (t : Tables) (id : Bytes) : List MessageRecord :=
  t.messages.filter fun m => coll m.conversationId = coll id

/-- The messages `WHERE from_user_id=? AND client_msg_id=?` selects. -/
def Tables.messagesFrom (t : Tables) (fromUserId : UserId) (clientMsgId : Bytes) :
    List MessageRecord :=
  t.messages.filter fun m => m.fromUserId = fromUserId ∧ coll m.clientMsgId = coll clientMsgId

/-- Carry out one write. -/
def Tables.apply (t : Tables) : Write → Tables
  | .insertConversation row => { t with conversations := t.conversations ++ [row] }
  | .insertMember row => { t with members := t.members ++ [row] }
  | .setLastSeq id n =>
    { t with
      conversations := t.conversations.map fun r =>
        if coll r.id = coll id then { r with lastSeq := n } else r }
  | .insertMessage row => { t with messages := t.messages ++ [row] }
  | .setStatus id status deliveredAt readAt =>
    { t with
      messages := t.messages.map fun m =>
        if coll m.id = coll id then
          { m with status := status, deliveredAt := deliveredAt, readAt := readAt }
        else m }

/-- The locks under which a write is made. -/
def Write.touches : Write → List Lock
  | .insertConversation row =>
    .conversation (coll row.id) :: row.singleChatKey.toList.map fun k => .chatKey (coll k)
  | .insertMember row => [.member (coll row.conversationId) row.userId]
  | .setLastSeq id _ => [.conversation (coll id)]
  | .insertMessage row =>
    [.message (coll row.id), .client row.fromUserId (coll row.clientMsgId),
      .sequence (coll row.conversationId) row.sequence, .conversation (coll row.conversationId)]
  | .setStatus _ _ _ _ => []

/-- What a lock protects, as far as the guarantees below are concerned: the
counters of a conversation with its messages, and the messages of a client id. -/
def Tables.view (t : Tables) : Lock → List Int × List MessageRecord
  | .conversation k =>
    ((t.conversations.filter fun r => coll r.id = k).map (·.lastSeq),
      (t.messages.filter fun m => coll m.conversationId = k).map (·.core))
  | .client u k =>
    ([], (t.messages.filter fun m => m.fromUserId = u ∧ coll m.clientMsgId = k).map (·.core))
  | _ => ([], [])

/-- What a write does to a view. -/
def Write.onView : Write → Lock → List Int × List MessageRecord → List Int × List MessageRecord
  | .insertConversation row, .conversation k, v =>
    if coll row.id = k then (v.1 ++ [row.lastSeq], v.2) else v
  | .setLastSeq id n, .conversation k, v =>
    if coll id = k then (v.1.map fun _ => n, v.2) else v
  | .insertMessage row, .conversation k, v =>
    if coll row.conversationId = k then (v.1, v.2 ++ [row.core]) else v
  | .insertMessage row, .client u k, v =>
    if row.fromUserId = u ∧ coll row.clientMsgId = k then (v.1, v.2 ++ [row.core]) else v
  | _, _, v => v

end

variable {coll : Collation}

/-! ## Writes seen through the locks -/

private theorem filter_map_comm {α β : Type} {p : α → Bool} {f : α → α} {g : α → β}
    (hp : ∀ a, p (f a) = p a) (hg : ∀ a, p a = true → g (f a) = g a) (l : List α) :
    ((l.map f).filter p).map g = (l.filter p).map g := by
  induction l with
  | nil => rfl
  | cons a l ih =>
    by_cases ha : p a = true
    · simp [hp, ha, hg a ha, ih]
    · simp [hp, ha, ih]

private theorem filter_map_const {α β : Type} {p : α → Bool} {f : α → α} {g : α → β} {b : β}
    (hp : ∀ a, p (f a) = p a) (hg : ∀ a, p a = true → g (f a) = b) (l : List α) :
    ((l.map f).filter p).map g = ((l.filter p).map g).map fun _ => b := by
  induction l with
  | nil => rfl
  | cons a l ih =>
    by_cases ha : p a = true
    · simp only [List.map_cons, List.filter_cons, hp, ha, if_true, hg a ha, ih]
    · simp [hp, ha, ih]

/-- A status update is invisible in every view. -/
theorem Tables.view_setStatus (t : Tables) (id : Bytes) (status : MessageStatus)
    (deliveredAt readAt : Timestamp) (k : Lock) :
    (t.apply coll (.setStatus id status deliveredAt readAt)).view coll k = t.view coll k := by
  cases k with
  | conversation k | client u k =>
    refine Prod.ext rfl (filter_map_comm ?_ ?_ t.messages)
    · intro m
      split <;> rfl
    · intro m _
      split <;> rfl
  | chatKey _ | member _ _ | message _ | sequence _ _ => rfl

/-- Allocating a sequence number replaces the counters of that conversation. -/
theorem Tables.view_setLastSeq (t : Tables) (id : Bytes) (n : Int) (k : Bytes) :
    (t.apply coll (.setLastSeq id n)).view coll (.conversation k) =
      (Write.setLastSeq id n).onView coll (.conversation k) (t.view coll (.conversation k)) := by
  have hkeep : ∀ r : Conversation,
      decide (coll (if coll r.id = coll id then { r with lastSeq := n } else r).id = k) =
        decide (coll r.id = k) := by
    intro r
    split <;> rfl
  by_cases hk : coll id = k
  · simp only [Write.onView, if_pos hk]
    refine Prod.ext (filter_map_const hkeep ?_ t.conversations) rfl
    intro r hr
    rw [if_pos ((of_decide_eq_true hr).trans hk.symm)]
  · simp only [Write.onView, if_neg hk]
    refine Prod.ext (filter_map_comm hkeep ?_ t.conversations) rfl
    intro r hr
    rw [if_neg fun h => hk (h.symm.trans (of_decide_eq_true hr))]

theorem Tables.view_apply (t : Tables) (w : Write) (k : Lock) :
    (t.apply coll w).view coll k = w.onView coll k (t.view coll k) := by
  cases w with
  | setStatus id status d r =>
    rw [Tables.view_setStatus]
    cases k <;> rfl
  | setLastSeq id n =>
    cases k with
    | conversation k => exact t.view_setLastSeq id n k
    | _ => rfl
  | insertMember row => cases k <;> rfl
  | insertConversation row =>
    cases k with
    | conversation k =>
      by_cases h : coll row.id = k <;>
        simp [Tables.view, Tables.apply, Write.onView, List.filter_append, h]
    | _ => rfl
  | insertMessage row =>
    cases k with
    | conversation k =>
      by_cases h : coll row.conversationId = k <;>
        simp [Tables.view, Tables.apply, Write.onView, List.filter_append, h]
    | client u k =>
      by_cases h : row.fromUserId = u ∧ coll row.clientMsgId = k <;>
        simp [Tables.view, Tables.apply, Write.onView, List.filter_append, h]
    | _ => rfl

theorem Write.onView_of_not_touched {w : Write} {k : Lock} (h : k ∉ w.touches coll)
    (v : List Int × List MessageRecord) : w.onView coll k v = v := by
  cases w <;> cases k <;> first
    | rfl
    | (simp only [Write.onView]
       refine if_neg fun he => h ?_
       simp [Write.touches, he])

/-- The tables as a store written under locks. -/
def store (coll : Collation) : Store Tables Write Lock (List Int × List MessageRecord) where
  apply := Tables.apply coll
  view k t := t.view coll k
  touches := Write.touches coll
  frame t h := by
    rw [Tables.view_apply, Write.onView_of_not_touched h]
  congr w h := by
    rw [Tables.view_apply, Tables.view_apply, h]

/-! ## The rows of `messages` in commit order -/

/-- The row a write adds to `messages`. -/
def Write.inserted : Write → Option MessageRecord
  | .insertMessage row => some row
  | _ => none

/-- The rows writes add to `messages`. -/
def insertedBy (ws : List Write) : List MessageRecord := ws.filterMap Write.inserted

/-- The lasting part of every row of `messages`. -/
def Tables.cores (t : Tables) : List MessageRecord := t.messages.map (·.core)

theorem Tables.cores_apply (t : Tables) (w : Write) :
    (t.apply coll w).cores = t.cores ++ w.inserted.toList.map (·.core) := by
  cases w with
  | insertMessage row => simp [Tables.apply, Tables.cores, Write.inserted]
  | setStatus id status d r =>
    simp only [Tables.apply, Tables.cores, Write.inserted, List.map_map, Option.toList_none,
      List.map_nil, List.append_nil]
    refine List.map_congr_left fun m _ => ?_
    show (if coll m.id = coll id then _ else m).core = m.core
    split <;> rfl
  | insertConversation _ | insertMember _ | setLastSeq _ _ =>
    simp [Tables.apply, Tables.cores, Write.inserted]

/-- Rows are only ever added, in commit order. -/
theorem Tables.cores_applyAll (t : Tables) (ws : List Write) :
    ((store coll).applyAll t ws).cores = t.cores ++ (insertedBy ws).map (·.core) := by
  induction ws using List.reverseRecOn with
  | nil => simp [insertedBy]
  | append_singleton ws w ih =>
    rw [Store.applyAll_concat]
    show (((store coll).applyAll t ws).apply coll w).cores = _
    rw [Tables.cores_apply, ih]
    cases hw : w.inserted <;> simp [insertedBy, hw]

theorem Tables.view_client (t : Tables) (u : UserId) (k : Bytes) :
    (t.view coll (.client u k)).2 =
      t.cores.filter fun m => m.fromUserId = u ∧ coll m.clientMsgId = k := by
  rw [Tables.cores, List.filter_map]
  rfl

theorem Tables.view_messages (t : Tables) (k : Bytes) :
    (t.view coll (.conversation k)).2 =
      t.cores.filter fun m => coll m.conversationId = k := by
  rw [Tables.cores, List.filter_map]
  rfl

end ChatServer.Db
