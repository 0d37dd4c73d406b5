import ChatServer.Base.Lts
import ChatServer.Db.MessageRepository

/-!
# Storing messages: calls, connections and the server

The store phase of `ChatService::sendMessage` and `GroupService`'s fan-out
(dedup cache, `findMessageByClientMsgId`, `createMessage`, conflict check) as a
transition system: any number of calls, the pooled connections they borrow and
the database, one statement a step. Every statement may fail in any of the
ways of `Outcome`, connections may drop at any time, and a `COMMIT` whose
connection is lost may still be carried out later. The database is its log of
commits; the ghost field `failed` remembers the calls one of whose statements
was not carried out.
-/

namespace ChatServer.Service

open Base Db

/-- `IsSameIdempotentMessage` and `SameStoredGroupMessage`. -/
def isSameIdempotentMessage (expected actual : MessageRecord) : Bool :=
  expected.conversationId = actual.conversationId ∧ expected.clientMsgId = actual.clientMsgId ∧
    expected.fromUserId = actual.fromUserId ∧ expected.toUserId = actual.toUserId ∧
    expected.content = actual.content

/-- `MapRepositoryError`. -/
def mapRepositoryError : RepositoryStatus → ErrorCode
  | .insertFailed | .duplicate => .dbInsertFailed
  | .queryFailed | .connectionUnavailable | .borrowTimeout | .notFound => .dbQueryFailed
  | .ok => .internalError

theorem mapRepositoryError_ne_ok (status : RepositoryStatus) : mapRepositoryError status ≠ .ok := by
  cases status <;> exact nofun

/-- What the store phase leads to: the stored message the reply is built from,
or an error reply. -/
inductive SendAnswer where
  | ok (stored : MessageRecord) (created : Bool)
  | conflict
  | storeFailed (status : RepositoryStatus)
  deriving DecidableEq, Repr

/-- `SendMessageResult::code`. -/
def SendAnswer.code : SendAnswer → ErrorCode
  | .ok _ _ => .ok
  | .conflict => .idempotencyConflict
  | .storeFailed status => mapRepositoryError status

/-- The end of the store phase. -/
def answer (pending : MessageRecord) : CreateMessageResult → SendAnswer
  | .failed status => .storeFailed status
  | .ok stored created =>
    if isSameIdempotentMessage pending stored then .ok stored created else .conflict

/-- Where a call is; `toFind` and `toCreate` wait for a connection. -/
inductive CallState where
  | ready
  | toFind (cached : Bytes)
  | finding (cached : Bytes)
  | toCreate
  | creating
  | done (a : SendAnswer)
  deriving DecidableEq

/-- A committed transaction and the call it belongs to. -/
structure Commit (κ : Type) where
  author : Option κ
  writes : List Write
  deriving DecidableEq

structure State (ι κ : Type) where
  log : List (Commit κ) := []
  conns : ι → Conn κ
  calls : κ → CallState
  /-- a database step of the call was not carried out -/
  failed : κ → Bool := fun _ => false

inductive Label (ι κ : Type) where
  /-- `IMessageDedupCache::Lookup`; the cache may hold anything -/
  | cacheLookup (k : κ) (cached : Option Bytes)
  | borrow (k : κ) (i : ι)
  | borrowFailed (k : κ) (timeout : Bool)
  /-- the next statement on a connection -/
  | exec (i : ι) (o : Outcome)
  | drop (i : ι)
  /-- the server cleans up after a lost connection; a `COMMIT` on its way may
  still be carried out -/
  | reap (i : ι) (commit : Bool)
  | connect (i : ι)
  /-- a transaction of another repository function -/
  | other (w : Write)

namespace State

variable {ι κ : Type}

/-- The committed tables. -/
def tables (coll : Collation) (s : State ι κ) : Tables :=
  (store coll).applyAll {} (s.log.flatMap (·.writes))

/-- The open transactions. -/
def txns (s : State ι κ) (i : ι) : Option (Txn Write Lock) := (s.conns i).txn

/-- The tables as connection `i` reads them: what is committed and its own
uncommitted writes. -/
def own (coll : Collation) (s : State ι κ) (i : ι) : Tables :=
  (store coll).applyAll (s.tables coll) ((s.txns i).elim [] (·.writes))

def append (s : State ι κ) (e : Commit κ) : State ι κ := { s with log := s.log ++ [e] }

section

variable [DecidableEq ι] [DecidableEq κ]

def setConn (s : State ι κ) (i : ι) (c : Conn κ) : State ι κ :=
  { s with conns := Function.update s.conns i c }

def setCall (s : State ι κ) (k : κ) (c : CallState) : State ι κ :=
  { s with calls := Function.update s.calls k c }

def markFailed (s : State ι κ) (k : κ) : State ι κ :=
  { s with failed := Function.update s.failed k true }

/-- A statement inside the transaction of connection `i`, or on its own when
none is open. -/
def execute (s : State ι κ) (i : ι) (c : Conn κ) (k : κ) (g : Grant) (next : Pc) : State ι κ :=
  match c.txn with
  | some t =>
    s.setConn i ({ c with txn := some ⟨t.writes ++ g.writes, t.locks ++ g.locks⟩ }.goto k next)
  | none => (s.append ⟨some k, g.writes⟩).setConn i (c.goto k next)

/-- End the transaction of connection `i` with `COMMIT`. -/
def commitTxn (s : State ι κ) (i : ι) (author : Option κ) : State ι κ :=
  match s.txns i with
  | some t => (s.append ⟨author, t.writes⟩).setConn i { s.conns i with txn := none }
  | none => s

variable (pending : κ → MessageRecord)

/-- `createMessage` returns; the connection goes back. -/
def finishCreate (s : State ι κ) (i : ι) (c : Conn κ) (k : κ) (r : CreateMessageResult) :
    State ι κ :=
  (s.setConn i c.release).setCall k (.done (answer (pending k) r))

/-- `findMessageByClientMsgId` returns; only the message the cache named is
taken, otherwise the cache entry goes and `createMessage` is called. -/
def finishFind (s : State ι κ) (i : ι) (c : Conn κ) (k : κ) (found : Option MessageRecord) :
    State ι κ :=
  (s.setConn i c.release).setCall k <|
    match s.calls k, found with
    | .finding cached, some m =>
      if m.id = cached then .done (answer (pending k) (.ok m false)) else .toCreate
    | _, _ => .toCreate

/-- After the `ROLLBACK` of a failure exit. -/
def afterRollback (s : State ι κ) (i : ι) (c : Conn κ) (k : κ) : AfterRollback → State ι κ
  | .fail status => s.finishCreate pending i c k (.failed status)
  | .reread => s.setConn i (c.goto k .reread)

/-- A statement failed. -/
def refused (s : State ι κ) (i : ι) (k : κ) (pc : Pc) (o : Outcome) : State ι κ :=
  let c := s.conns i
  let s := s.markFailed k
  match pc with
  | .find => s.finishFind pending i (c.fault o) k none
  | .lookup | .reread =>
    s.finishCreate pending i (c.fault o) k (.failed (statementFailure o .queryFailed))
  | .begin => s.finishCreate pending i (c.fault o) k (.failed .queryFailed)
  | .conversation | .member _ _ | .insert _ =>
    s.setConn i ((c.fault o).goto k (.rollback (.fail (statementFailure o .insertFailed))))
  | .allocate =>
    s.setConn i ((c.fault o).goto k (.rollback (.fail (statementFailure o .queryFailed))))
  | .select => s.setConn i ((c.fault o).goto k (.rollback (.fail .queryFailed)))
  | .commit _ =>
    -- a `COMMIT` that was sent before the connection went may still happen
    let link := if o = .lost ∧ c.link = .up then .down (some k) else (c.fault o).link
    s.setConn i ({ c.fault o with link := link }.goto k (.rollback (.fail .queryFailed)))
  | .rollback next => s.afterRollback pending i { c.fault o with reusable := false } k next

variable (coll : Collation) [Fintype ι]

/-- Run a statement that needs the locks of `g`; `none` while it waits for them. -/
def granted (s : State ι κ) (i : ι) (c : Conn κ) (k : κ) (g : Grant) (next : Pc) :
    Option (State ι κ) :=
  if Free s.txns i g.locks then some (s.execute i c k g next) else none

/-- A statement was carried out. -/
def answered (s : State ι κ) (i : ι) (k : κ) (pc : Pc) : Option (State ι κ) :=
  let c := s.conns i
  let m := pending k
  match pc with
  | .find => some (s.finishFind pending i c k (readMessageByClientId coll (s.own coll i) m))
  | .lookup =>
    match readMessageByClientId coll (s.own coll i) m with
    | some row => some (s.finishCreate pending i c k (.ok row false))
    | none => some (s.setConn i (c.goto k .begin))
  | .begin =>
    -- `START TRANSACTION` commits a transaction that is still open
    some ((s.commitTxn i (some k)).setConn i
      ({ c with txn := some ⟨[], []⟩ }.goto k .conversation))
  | .conversation =>
    s.granted i c k
      (upsertConversation coll (s.own coll i) m.conversationId
        (singleChatKey m.fromUserId m.toUserId))
      (.member m.fromUserId [m.toUserId])
  | .member user rest =>
    s.granted i c k (upsertMember coll (s.own coll i) m.conversationId user)
      (match rest with
        | [] => .allocate
        | next :: rest => .member next rest)
  | .allocate =>
    match (s.own coll i).conversationsWith coll m.conversationId with
    | [row] =>
      -- `last_seq` is a `BIGINT`
      if row.lastSeq + 1 < 2 ^ 63 then
        s.granted i { c with lastInsertId := row.lastSeq + 1 } k
          ⟨[.conversation (coll m.conversationId)],
            [.setLastSeq m.conversationId (row.lastSeq + 1)]⟩ .select
      else some (s.refused pending i k .allocate .error)
    | _ => some ((s.markFailed k).setConn i (c.goto k (.rollback (.fail .queryFailed))))
  | .select =>
    if c.lastInsertId ≤ 0 then
      some ((s.markFailed k).setConn i (c.goto k (.rollback (.fail .queryFailed))))
    else some (s.setConn i (c.goto k (.insert c.lastInsertId)))
  | .insert sequence =>
    let row := insertedRow m sequence
    if duplicateEntry coll (s.own coll i) row then
      some (s.setConn i (c.goto k (.rollback .reread)))
    else
      s.granted i c k ⟨(Write.insertMessage row).touches coll, [.insertMessage row]⟩
        (.commit sequence)
  | .commit sequence =>
    some ((s.commitTxn i (some k)).finishCreate pending i { c with txn := none } k
      (.ok { m with sequence := sequence } true))
  | .rollback next => some (s.afterRollback pending i { c with txn := none } k next)
  | .reread =>
    match readMessageByClientId coll (s.own coll i) m with
    | some row => some (s.finishCreate pending i c k (.ok row false))
    | none => some ((s.markFailed k).finishCreate pending i c k (.failed .duplicate))

/-- The next statement on connection `i`; a lost connection gives no answer. -/
def exec (s : State ι κ) (i : ι) (o : Outcome) : Option (State ι κ) :=
  match (s.conns i).job with
  | none => none
  | some (k, pc) =>
    if o ≠ .lost ∧ (s.conns i).link ≠ .up then none
    else if o = .done then s.answered pending coll i k pc
    else some (s.refused pending i k pc o)

/-- No open transaction holds any of the locks. -/
def unlocked (s : State ι κ) (ks : List Lock) : Bool :=
  ∀ i, ∀ t ∈ s.txns i, ∀ k ∈ ks, k ∉ t.locks

/-- What other functions commit: a new conversation without messages
(`findOrCreateSingleConversation`, `GroupRepository::createGroup`), a member, or
the delivery marks of stored messages. -/
def admits (s : State ι κ) : Write → Bool
  | .insertConversation row =>
    row.lastSeq = 0 ∧ (s.tables coll).conversationsWith coll row.id = [] ∧
    (∀ key ∈ row.singleChatKey,
      ∀ r ∈ (s.tables coll).conversations, r.singleChatKey.map coll ≠ some (coll key)) ∧
    s.unlocked ((Write.insertConversation row).touches coll)
  | .insertMember row =>
    (∀ m ∈ (s.tables coll).members,
      coll m.conversationId ≠ coll row.conversationId ∨ m.userId ≠ row.userId) ∧
    s.unlocked ((Write.insertMember row).touches coll)
  | .setStatus _ _ _ _ => true
  | .setLastSeq _ _ | .insertMessage _ => false

/-- A call gets connection `i` from the pool. -/
def borrow (s : State ι κ) (k : κ) (i : ι) : Option (State ι κ) :=
  let c := s.conns i
  if c.link = .up ∧ c.job = none then
    match s.calls k with
    | .toFind cached =>
      some ((s.setConn i ({ c with reusable := true }.goto k .find)).setCall k (.finding cached))
    | .toCreate =>
      some ((s.setConn i ({ c with reusable := true }.goto k .lookup)).setCall k .creating)
    | _ => none
  else none

/-- `DbPool::borrow` fails (`MapBorrowError`). -/
def borrowFailed (s : State ι κ) (k : κ) (timeout : Bool) : Option (State ι κ) :=
  match s.calls k with
  | .toFind _ => some ((s.markFailed k).setCall k .toCreate)
  | .toCreate =>
    some ((s.markFailed k).setCall k <| .done <| answer (pending k) <|
      .failed (if timeout then .borrowTimeout else .connectionUnavailable))
  | _ => none

/-- The server ends the transaction of a lost connection. -/
def reap (s : State ι κ) (i : ι) (commit : Bool) : Option (State ι κ) :=
  let c := s.conns i
  match c.link, c.txn with
  | .down (some k), some _ =>
    if commit then some (s.commitTxn i (some k)) else some (s.setConn i { c with txn := none })
  | .down none, some _ => some (s.setConn i { c with txn := none })
  | _, _ => none

def step (s : State ι κ) : Label ι κ → Option (State ι κ)
  | .cacheLookup k cached =>
    match s.calls k, cached with
    | .ready, some id => some (s.setCall k (.toFind id))
    | .ready, none => some (s.setCall k .toCreate)
    | _, _ => none
  | .borrow k i => s.borrow k i
  | .borrowFailed k timeout => s.borrowFailed pending k timeout
  | .exec i o => s.exec pending coll i o
  | .drop i =>
    if (s.conns i).link = .up then some (s.setConn i { s.conns i with link := .down none })
    else none
  | .reap i commit => s.reap i commit
  | .connect i =>
    let c := s.conns i
    if c.link ≠ .up ∧ c.txn = none ∧ c.job = none then some (s.setConn i {}) else none
  | .other w => if s.admits coll w then some (s.append ⟨none, [w]⟩) else none

end

/-- The database as the script creates it, idle connections, and no call begun. -/
def Initial (s : State ι κ) : Prop :=
  s.log = [] ∧ (∀ i, (s.conns i).txn = none ∧ (s.conns i).job = none ∧ (s.conns i).link = .up) ∧
    (∀ k, s.calls k = .ready) ∧ ∀ k, s.failed k = false

end State

/-- The calls `κ` with their pending messages over the connections `ι`. -/
def lts {ι κ : Type} [Fintype ι] [DecidableEq ι] [DecidableEq κ] (coll : Collation)
    (pending : κ → MessageRecord) : Lts (State ι κ) (Label ι κ) where
  Init := State.Initial
  step s l := s.step pending coll l

end ChatServer.Service
