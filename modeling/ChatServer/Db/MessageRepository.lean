import ChatServer.Db.Tables

/-!
# `MessageRepository::createMessage` on one connection

The seven statements of `createMessage` with every failure exit, as a program
counter (`Pc`) over the state of one pooled connection, and what the server
does for each statement: which rows and key entries it locks and which rows it
changes (`Grant`). How the server answers is open (`Outcome`); the branch the
repository takes on each answer is the transition system's next module.
-/

namespace ChatServer.Db

open Base

/-- `chat::RepositoryStatus`. -/
inductive RepositoryStatus where
  | ok
  | notFound
  | queryFailed
  | duplicate
  | insertFailed
  | connectionUnavailable
  | borrowTimeout
  deriving DecidableEq, Repr

/-- `chat::CreateMessageResult`: a message exactly when the status is `kOk`. -/
inductive CreateMessageResult where
  | ok (message : MessageRecord) (created : Bool)
  | failed (status : RepositoryStatus)
  deriving DecidableEq, Repr

/-- `SingleChatKey`. -/
def singleChatKey (a b : UserId) : Bytes := intText (min a b) ++ str "_" ++ intText (max a b)

/-- How a statement ends. -/
inductive Outcome where
  /-- carried out and answered -/
  | done
  /-- refused: nothing changed, the transaction stays open -/
  | error
  /-- the server rolled the whole transaction back (deadlock) -/
  | aborted
  /-- `CR_SERVER_GONE_ERROR` or `CR_SERVER_LOST`: no answer, the connection is gone -/
  | lost
  deriving DecidableEq, Repr

/-- The status `StatementFailure` gives. -/
def statementFailure (o : Outcome) (fallback : RepositoryStatus) : RepositoryStatus :=
  if o = .lost then .connectionUnavailable else fallback

/-- What follows the `ROLLBACK` of a failure exit. -/
inductive AfterRollback where
  | fail (status : RepositoryStatus)
  /-- duplicate key on the message insert: look the message up again -/
  | reread
  deriving DecidableEq, Repr

/-- The statement a borrowed connection is about to run. -/
inductive Pc where
  /-- the lookup of `findMessageByClientMsgId` -/
  | find
  /-- the first lookup of `createMessage` -/
  | lookup
  | begin
  | conversation
  | member (user : UserId) (rest : List UserId)
  | allocate
  | select
  | insert (sequence : Int)
  | commit (sequence : Int)
  | rollback (next : AfterRollback)
  | reread
  deriving DecidableEq, Repr

/-- A connection as the server sees it; after a loss a `COMMIT` may still be on
its way. -/
inductive Link (κ : Type) where
  | up
  | down (committing : Option κ)
  deriving DecidableEq, Repr

/-- A connection of the pool. `job` is the call that has borrowed it. -/
structure Conn (κ : Type) where
  txn : Option (Txn Write Lock) := none
  lastInsertId : Int := 0
  link : Link κ := .up
  reusable : Bool := true
  job : Option (κ × Pc) := none
  deriving DecidableEq

/-- The locks a statement needs and the writes it makes. -/
structure Grant where
  locks : List Lock
  writes : List Write
  deriving DecidableEq

section

variable (coll : Collation)

/-- `INSERT INTO conversations … ON DUPLICATE KEY UPDATE updated_at=updated_at`.
A row with the same id, or failing that with the same `single_chat_key`, is
locked and kept. -/
def upsertConversation (t : Tables) (id key : Bytes) : Grant :=
  match t.conversationsWith coll id with
  | _ :: _ => ⟨[.conversation (coll id)], []⟩
  | [] =>
    match t.conversations.find? fun r => r.singleChatKey.map coll = some (coll key) with
    | some r => ⟨[.conversation (coll r.id)], []⟩
    | none =>
      ⟨[.conversation (coll id), .chatKey (coll key)],
        [.insertConversation ⟨id, .single, some key, 0⟩]⟩

/-- Upserting a conversation: it is there, or a row of its key is, or it is made. -/
theorem upsertConversation_cases (t : Tables) (id key : Bytes) :
    ((upsertConversation coll t id key).writes = [] ∧
        (t.conversationsWith coll id ≠ [] ∨
          ∃ r ∈ t.conversations, r.singleChatKey.map coll = some (coll key))) ∨
      t.conversationsWith coll id = [] ∧ upsertConversation coll t id key =
        ⟨[.conversation (coll id), .chatKey (coll key)],
          [.insertConversation ⟨id, .single, some key, 0⟩]⟩ := by
  unfold upsertConversation
  cases hwith : t.conversationsWith coll id with
  | cons r rest => exact .inl ⟨rfl, .inl (List.cons_ne_nil _ _)⟩
  | nil =>
    cases hfind : t.conversations.find? fun r => r.singleChatKey.map coll = some (coll key) with
    | some r =>
      have hkey : r.singleChatKey.map coll = some (coll key) := by
        simpa using List.find?_some hfind
      exact .inl ⟨rfl, .inr ⟨r, List.mem_of_find?_eq_some hfind, hkey⟩⟩
    | none => exact .inr ⟨rfl, rfl⟩

/-- `INSERT INTO conversation_members … ON DUPLICATE KEY UPDATE role=role`. -/
def upsertMember (t : Tables) (id : Bytes) (user : UserId) : Grant :=
  if t.members.any fun m => coll m.conversationId = coll id ∧ m.userId = user then
    ⟨[.member (coll id) user], []⟩
  else ⟨[.member (coll id) user], [.insertMember ⟨id, user, str "member"⟩]⟩

/-- The row `createMessage` inserts: `delivered_at` and `read_at` are `NULL`. -/
def insertedRow (m : MessageRecord) (sequence : Int) : MessageRecord :=
  { m with sequence := sequence, deliveredAt := 0, readAt := 0 }

/-- A key of the new row is taken: `ER_DUP_ENTRY`. -/
def duplicateEntry (t : Tables) (row : MessageRecord) : Bool :=
  t.messages.any fun m =>
    coll m.id = coll row.id ∨
    (m.fromUserId = row.fromUserId ∧ coll m.clientMsgId = coll row.clientMsgId) ∨
    (coll m.conversationId = coll row.conversationId ∧ m.sequence = row.sequence)

/-- `ReadMessageByClientId`. -/
def readMessageByClientId (t : Tables) (m : MessageRecord) : Option MessageRecord :=
  (t.messagesFrom coll m.fromUserId m.clientMsgId).head?

end

variable {κ : Type}

/-- What the server and `markBad` make of a failed statement. -/
def Conn.fault (c : Conn κ) : Outcome → Conn κ
  | .aborted => { c with txn := none }
  | .lost =>
    { c with
      reusable := false
      link := match c.link with
        | .up => .down none
        | .down k => .down k }
  | _ => c

/-- `PooledConnection`'s destructor: back to the pool, or closed after `markBad`. -/
def Conn.release (c : Conn κ) : Conn κ :=
  { c with
    job := none
    link := match c.link with
      | .down k => .down k
      | .up => if c.reusable then .up else .down none }

/-- Go on with the next statement. -/
def Conn.goto (c : Conn κ) (k : κ) (pc : Pc) : Conn κ := { c with job := some (k, pc) }

end ChatServer.Db
