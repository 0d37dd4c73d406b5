import ChatServer.Base.Database
import ChatServer.Base.Observed
import ChatServer.Db.DbPool
import ChatServer.Db.Records

/-!
# Transactions on pooled connections

The operations of the repositories that start a transaction, call by call:
`findOrCreateSingleConversation` and `createMessage` of `MessageRepository`, and
`GroupRepository::createGroup`. Every call may fail with any error number.

A connection must not go back to the idle queue with a transaction open, for the
next `START TRANSACTION` on it would commit what was left unfinished. A
connection on which `ROLLBACK` fails is marked bad by `MessageRepository` but not
by `GroupRepository`: `returned_clean_iff` says when that matters, and
`open_transaction_returned` is a run in which it does.
-/

namespace ChatServer.Db

open Base

/-! ## Calls -/

/-- The commands of `ExecuteCommand`. -/
inductive SqlCommand where
  | startTransaction
  | commit
  | rollback
  deriving DecidableEq, Repr

/-- The statements of `ExecuteUpdate`, with their parameters. -/
inductive SqlUpdate where
  | insertConversation (id : Bytes) (type : ConversationType) (singleChatKey : Option Bytes)
  | upsertConversation (id singleChatKey : Bytes)
  | insertConversationMember (conversationId : Bytes) (userId : UserId)
  | upsertConversationMember (conversationId : Bytes) (userId : UserId)
  | allocateSequence (conversationId : Bytes)
  | insertMessage (message : MessageRecord) (sequence : Int)
  | insertGroup (group : GroupRecord)
  | upsertGroupMember (member : GroupMemberRecord)
  deriving DecidableEq, Repr

/-- What a repository does with a borrowed connection. A failed call answers with
its error number, wherever between `Prepare` and `Fetch` it failed. -/
inductive Sql : Type → Type 1
  | query (command : SqlCommand) : Sql (Except Nat Unit)
  /-- the number of affected rows -/
  | update (statement : SqlUpdate) : Sql (Except Nat Nat)
  /-- no row, or a row, whose status may be out of range -/
  | selectMessage (fromUserId : UserId) (clientMsgId : Bytes) :
      Sql (Except Nat (Option (Option MessageRecord)))
  | selectConversation (singleChatKey : Bytes) : Sql (Except Nat (Option Bytes))
  /-- `none` if the value could not be fetched -/
  | selectLastInsertId : Sql (Except Nat (Option Int))
  /-- `PooledConnection::markBad` -/
  | markBad : Sql Unit

abbrev Work := Prog Sql Empty

def duplicateEntryError : Nat := 1062

/-- `IsConnectionError`: `CR_SERVER_GONE_ERROR` and `CR_SERVER_LOST`. -/
def isConnectionError (errno : Nat) : Bool := errno = 2006 ∨ errno = 2013

/-- What the server decides about a call: whether there is a connection for it, and
what becomes of its statement. -/
structure SqlChoice where
  borrowError : Option DbPoolError := none
  fate : Fate Nat := .answered
  deriving DecidableEq, Repr

/-- `MapBorrowError`. -/
def mapBorrowError (error : DbPoolError) : RepositoryStatus :=
  if error = .borrowTimeout then .borrowTimeout else .connectionUnavailable

/-- The status of `StatementFailure`. -/
def failureStatus (errno : Nat) (fallback : RepositoryStatus) : RepositoryStatus :=
  if isConnectionError errno then .connectionUnavailable else fallback

/-- `StatementFailure`, of any repository; `markBad` is `PooledConnection::markBad`. -/
def statementFault {Op : Type → Type 1} {ε : Type} (markBad : Op Unit) (errno : Nat)
    (fallback : RepositoryStatus) : Prog Op ε RepositoryStatus := do
  if isConnectionError errno then
    Prog.perform markBad
    return .connectionUnavailable
  else return fallback

/-- `ExecuteCommand`. -/
def executeCommand (command : SqlCommand) : Work Bool := do
  match ← Prog.perform (.query command) with
  | .ok _ => return true
  | .error errno =>
    if isConnectionError errno then
      Prog.perform .markBad
      return false
    else return false

/-- `ExecuteUpdate`: the affected rows, or the status and the error number. -/
def executeUpdate (statement : SqlUpdate) (fallback : RepositoryStatus) :
    Work (Except (RepositoryStatus × Nat) Nat) := do
  match ← Prog.perform (.update statement) with
  | .ok affectedRows => return .ok affectedRows
  | .error errno =>
    let status ← statementFault .markBad errno fallback
    return .error (status, errno)

/-! ## `MessageRepository` -/

namespace MessageRepository

/-- `Rollback`: a connection on which it fails is marked bad. -/
def rollback : Work Unit := do
  if ← executeCommand .rollback then return () else Prog.perform .markBad

/-- `ReadMessageByClientId`. -/
def readMessageByClientId (fromUserId : UserId) (clientMsgId : Bytes) : Work FindMessageResult := do
  match ← Prog.perform (.selectMessage fromUserId clientMsgId) with
  | .ok (some (some m)) => return { status := .ok, message := some m }
  | .ok (some none) => return { status := .queryFailed }
  | .ok none => return { status := .notFound }
  | .error errno =>
    let status ← statementFault .markBad errno .queryFailed
    return { status }

structure FindOrCreateConversationResult where
  status : RepositoryStatus
  conversationId : Bytes := []
  created : Bool := false
  deriving DecidableEq, Repr

/-- `SelectConversation`. -/
def selectConversation (key : Bytes) : Work FindOrCreateConversationResult := do
  match ← Prog.perform (.selectConversation key) with
  | .ok (some id) => return { status := .ok, conversationId := id }
  | .ok none => return { status := .notFound }
  | .error errno =>
    let status ← statementFault .markBad errno .queryFailed
    return { status }

/-- Roll back, and fail with a status. -/
def abandon (status : RepositoryStatus) : Work FindOrCreateConversationResult := do
  rollback
  return { status }

/-- `COMMIT` at the end of `findOrCreateSingleConversation`. -/
def commitConversation (conversationId : Bytes) : Work FindOrCreateConversationResult := do
  if ← executeCommand .commit then
    return { status := .ok, conversationId, created := true }
  else abandon .queryFailed

/-- The members of a new conversation; one for a conversation with oneself. -/
def insertMembers (conversationId : Bytes) : List UserId → Work FindOrCreateConversationResult
  | [] => commitConversation conversationId
  | user :: rest => do
    match ← executeUpdate (.insertConversationMember conversationId user) .insertFailed with
    | .ok _ => insertMembers conversationId rest
    | .error (status, _) => abandon status

/-- `findOrCreateSingleConversation` on a borrowed connection. -/
def findOrCreateSingleConversation (userA userB : UserId) :
    Work FindOrCreateConversationResult := do
  let key := singleChatKey userA userB
  let existing ← selectConversation key
  if existing.status ≠ .notFound then return existing
  else
    let conversationId := str "conv_" ++ key
    if ← executeCommand .startTransaction then
      match ← executeUpdate (.insertConversation conversationId .single (some key))
          .insertFailed with
      | .ok _ =>
        insertMembers conversationId (if userA = userB then [userA] else [userA, userB])
      | .error (status, errno) =>
        rollback
        if errno = duplicateEntryError then
          let existing ← selectConversation key
          return if existing.status = .ok then existing else { status := .duplicate }
        else return { status }
    else return { status := .queryFailed }

/-- Roll back, and fail with a status. -/
def abandonMessage (status : RepositoryStatus) : Work CreateMessageResult := do
  rollback
  return .failed status

/-- `COMMIT` at the end of `createMessage`. -/
def commitMessage (m : MessageRecord) (sequence : Int) : Work CreateMessageResult := do
  if ← executeCommand .commit then return .ok { m with sequence } true
  else abandonMessage .queryFailed

/-- The row of the message itself. -/
def insertMessage (m : MessageRecord) (sequence : Int) : Work CreateMessageResult := do
  match ← executeUpdate (.insertMessage m sequence) .insertFailed with
  | .ok _ => commitMessage m sequence
  | .error (status, errno) =>
    rollback
    if errno = duplicateEntryError then
      let duplicate ← readMessageByClientId m.fromUserId m.clientMsgId
      match duplicate.status, duplicate.message with
      | .ok, some stored => return .ok stored false
      | status, _ => return .failed (if status = .notFound then .duplicate else status)
    else return .failed status

/-- `SelectLastInsertId`: `none` if there is no value. -/
def selectLastInsertId : Work (Option Int) := do
  match ← Prog.perform .selectLastInsertId with
  | .ok value => return value
  | .error errno =>
    let _ ← statementFault .markBad errno .queryFailed
    return none

/-- The sequence number of the message. -/
def allocateSequence (m : MessageRecord) : Work CreateMessageResult := do
  match ← executeUpdate (.allocateSequence m.conversationId) .queryFailed with
  | .error (status, _) => abandonMessage status
  | .ok affectedRows =>
    if affectedRows ≠ 1 then abandonMessage .queryFailed
    else
      match ← selectLastInsertId with
      | none => abandonMessage .queryFailed
      | some sequence =>
        if sequence ≤ 0 then abandonMessage .queryFailed else insertMessage m sequence

/-- The loop over sender and recipient. -/
def upsertMembers (m : MessageRecord) : List UserId → Work CreateMessageResult
  | [] => allocateSequence m
  | user :: rest => do
    match ← executeUpdate (.upsertConversationMember m.conversationId user) .insertFailed with
    | .ok _ => upsertMembers m rest
    | .error (status, _) => abandonMessage status

/-- `createMessage` on a borrowed connection. -/
def createMessage (m : MessageRecord) : Work CreateMessageResult := do
  let existing ← readMessageByClientId m.fromUserId m.clientMsgId
  match existing.status, existing.message with
  | .ok, some stored => return .ok stored false
  | .notFound, _ =>
    if ← executeCommand .startTransaction then
      match ← executeUpdate
          (.upsertConversation m.conversationId (singleChatKey m.fromUserId m.toUserId))
          .insertFailed with
      | .ok _ => upsertMembers m [m.fromUserId, m.toUserId]
      | .error (status, _) => abandonMessage status
    else return .failed .queryFailed
  | status, _ => return .failed status

end MessageRepository

/-! ## `GroupRepository` -/

namespace GroupRepository

/-- `Rollback`: a failure is not looked at. -/
def rollback : Work Unit := do
  let _ ← executeCommand .rollback
  return ()

/-- Roll back, and fail with a status. -/
def abandon (status : RepositoryStatus) : Work GroupResult := do
  rollback
  return { status }

/-- The status for a failed insert of a new row. -/
def insertStatus (status : RepositoryStatus) (errno : Nat) : RepositoryStatus :=
  if errno = duplicateEntryError then .duplicate else status

/-- The loop over the initial members, and `COMMIT`. -/
def insertMembers (group : GroupRecord) : List GroupMemberRecord → Work GroupResult
  | [] => do
    if ← executeCommand .commit then return { status := .ok, group := some group }
    else abandon .queryFailed
  | member :: rest => do
    match ← executeUpdate (.upsertGroupMember member) .insertFailed with
    | .ok _ => insertMembers group rest
    | .error (status, _) => abandon status

/-- `createGroup` on a borrowed connection. -/
def createGroup (group : GroupRecord) (initialMembers : List GroupMemberRecord) :
    Work GroupResult := do
  if ← executeCommand .startTransaction then
    match ← executeUpdate (.insertConversation group.conversationId .group none)
        .insertFailed with
    | .error (status, errno) => abandon (insertStatus status errno)
    | .ok _ =>
      match ← executeUpdate (.insertGroup group) .insertFailed with
      | .error (status, errno) => abandon (insertStatus status errno)
      | .ok _ => insertMembers group initialMembers
  else return { status := .queryFailed }

end GroupRepository

/-! ## The connection -/

/-- A connection as its borrower leaves it: whether a transaction is open
(`START TRANSACTION` succeeded, and no `COMMIT` or `ROLLBACK` since) and whether
it may be used again. -/
structure SqlSession where
  txnOpen : Bool := false
  reusable : Bool := true
  deriving DecidableEq, Repr

/-- What a call and its answer make of the connection. -/
def SqlSession.see (s : SqlSession) : Event Sql → SqlSession
  | ⟨.query .startTransaction, .ok _⟩ => { s with txnOpen := true }
  | ⟨.query .commit, .ok _⟩ => { s with txnOpen := false }
  | ⟨.query .rollback, .ok _⟩ => { s with txnOpen := false }
  | ⟨.markBad, _⟩ => { s with reusable := false }
  | _ => s

/-- The error number of a failed call. -/
def errorOf : Event Sql → Option Nat
  | ⟨.query _, .error errno⟩ => some errno
  | ⟨.update _, .error errno⟩ => some errno
  | ⟨.selectMessage _ _, .error errno⟩ => some errno
  | ⟨.selectConversation _, .error errno⟩ => some errno
  | ⟨.selectLastInsertId, .error errno⟩ => some errno
  | _ => none

/-- The call failed because the connection is gone. -/
def connectionLost (e : Event Sql) : Bool := (errorOf e).any isConnectionError

/-- A `ROLLBACK` that failed. -/
def rollbackRefused : Event Sql → Bool
  | ⟨.query .rollback, .error _⟩ => true
  | _ => false

/-- The operations that start a transaction. -/
inductive Transaction where
  | findOrCreateSingleConversation (userA userB : UserId)
  | createMessage (message : MessageRecord)
  | createGroup (group : GroupRecord) (initialMembers : List GroupMemberRecord)
  deriving DecidableEq, Repr

/-- What the operation does with its connection. -/
def Transaction.work : Transaction → Work Unit
  | .findOrCreateSingleConversation userA userB => do
    let _ ← MessageRepository.findOrCreateSingleConversation userA userB
  | .createMessage message => do
    let _ ← MessageRepository.createMessage message
  | .createGroup group initialMembers => do
    let _ ← GroupRepository.createGroup group initialMembers

/-- The operation is one of `GroupRepository`. -/
def Transaction.ofGroup : Transaction → Bool
  | .createGroup _ _ => true
  | _ => false

/-! ## Watching a run -/

/-- The connection together with what the run has met so far. -/
structure Watch where
  session : SqlSession := {}
  lost : Bool := false
  refused : Bool := false

def Watch.see (w : Watch) (e : Event Sql) : Watch where
  session := w.session.see e
  lost := w.lost || connectionLost e
  refused := w.refused || rollbackRefused e

theorem foldl_see (w : Watch) (τ : List (Event Sql)) :
    τ.foldl Watch.see w =
      ⟨τ.foldl SqlSession.see w.session, w.lost || τ.any connectionLost,
        w.refused || τ.any rollbackRefused⟩ := by
  induction τ generalizing w with
  | nil => simp
  | cons e τ ih =>
    rw [List.foldl_cons, ih, List.foldl_cons, List.any_cons, List.any_cons, ← Bool.or_assoc,
      ← Bool.or_assoc]
    rfl

/-- After a call that failed: a lost connection is marked bad. -/
def Watch.fault (w : Watch) (e : Event Sql) : Watch :=
  if connectionLost e then (w.see e).see ⟨.markBad, ()⟩ else w.see e

section

variable {w : Watch} {e : Event Sql}

/-- A failed call opens and closes no transaction. -/
theorem see_of_error {s : SqlSession} (h : (errorOf e).isSome = true) : s.see e = s := by
  obtain ⟨op, answer⟩ := e
  cases op with
  | query command =>
    cases answer with
    | ok u => cases h
    | error errno => cases command <;> rfl
  | markBad => cases h
  | _ => rfl

theorem fault_txnOpen (h : (errorOf e).isSome = true) :
    (w.fault e).session.txnOpen = w.session.txnOpen := by
  have hsee : (w.session.see e).txnOpen = w.session.txnOpen :=
    congrArg SqlSession.txnOpen (see_of_error h)
  unfold Watch.fault
  split
  · exact hsee
  · exact hsee

theorem fault_refused : (w.fault e).refused = (w.refused || rollbackRefused e) := by
  unfold Watch.fault
  split
  · exact Bool.or_false _
  · rfl

/-- Losing the connection and marking it bad go together. -/
theorem fault_reusable (h : (errorOf e).isSome = true) (hw : w.session.reusable = !w.lost) :
    (w.fault e).session.reusable = !(w.fault e).lost := by
  unfold Watch.fault
  split
  next hlost =>
    show false = !((w.lost || connectionLost e) || false)
    simp [hlost]
  next hkept =>
    have hsee : (w.see e).session = w.session := see_of_error h
    have hlost : (w.see e).lost = w.lost := by
      show (w.lost || connectionLost e) = w.lost
      rw [Bool.eq_false_of_not_eq_true hkept, Bool.or_false]
    rw [hsee, hlost, hw]

variable {α : Type}

theorem leaves_statementFault {errno : Nat} {fallback : RepositoryStatus}
    {Q : RepositoryStatus → Watch → Prop} (herr : errorOf e = some errno)
    (hfault : ∀ status, Q status (w.fault e)) :
    (statementFault .markBad errno fallback : Work RepositoryStatus).Leaves Watch.see Q
      (w.see e) := by
  have hlost : connectionLost e = isConnectionError errno := by
    unfold connectionLost
    rw [herr]
    rfl
  unfold Watch.fault at hfault
  unfold statementFault
  rw [hlost] at hfault
  refine .ite (fun h => .call trivial fun _ => .pure ?_) fun h => .pure ?_
  · rw [if_pos h] at hfault
    exact hfault _
  · rw [if_neg h] at hfault
    exact hfault _

theorem leaves_executeCommand {command : SqlCommand} {Q : Bool → Watch → Prop}
    (hdone : Q true (w.see ⟨.query command, .ok ()⟩))
    (hfault : ∀ errno, Q false (w.fault ⟨.query command, .error errno⟩)) :
    (executeCommand command).Leaves Watch.see Q w := by
  refine .call trivial fun r => ?_
  cases r with
  | ok u => exact .pure hdone
  | error errno =>
    have hfault := hfault errno
    unfold Watch.fault at hfault
    have hlost : connectionLost ⟨.query command, .error errno⟩ = isConnectionError errno := rfl
    rw [hlost] at hfault
    refine .ite (fun h => .call trivial fun _ => .pure ?_) fun h => .pure ?_
    · rwa [if_pos h] at hfault
    · rwa [if_neg h] at hfault

theorem leaves_executeUpdate {statement : SqlUpdate} {fallback : RepositoryStatus}
    {Q : Except (RepositoryStatus × Nat) Nat → Watch → Prop}
    (hdone : ∀ rows, Q (.ok rows) (w.see ⟨.update statement, .ok rows⟩))
    (hfault : ∀ status errno,
      Q (.error (status, errno)) (w.fault ⟨.update statement, .error errno⟩)) :
    (executeUpdate statement fallback).Leaves Watch.see Q w := by
  refine .call trivial fun r => ?_
  cases r with
  | ok rows => exact .pure (hdone rows)
  | error errno =>
    exact .bind (Q := fun status w => Q (.error (status, errno)) w)
      (leaves_statementFault rfl fun status => hfault status errno) fun _ _ h => .pure h

end

/-! ## `MessageRepository` returns its connections clean -/

/-- The connection may go back: nothing is open on it, or it is marked bad. -/
def Watch.Clean (w : Watch) : Prop := w.session.txnOpen = false ∨ w.session.reusable = false

theorem Watch.Clean.fault {w : Watch} {e : Event Sql} (h : w.Clean)
    (herr : (errorOf e).isSome = true) : (w.fault e).Clean := by
  rcases h with htxn | hbad
  · exact .inl ((fault_txnOpen herr).trans htxn)
  · unfold Watch.fault
    split
    · exact .inr rfl
    · exact .inr ((congrArg SqlSession.reusable (see_of_error herr)).trans hbad)

namespace MessageRepository

variable {w : Watch}

theorem clean_rollback (w : Watch) : rollback.Leaves Watch.see (fun _ w => w.Clean) w := by
  refine .bind (leaves_executeCommand (Q := fun done w => done = true → w.Clean)
    (fun _ => .inl rfl) fun _ h => nomatch h) fun done w hdone => ?_
  exact .ite (fun h => .pure (hdone h)) fun _ => .perform trivial fun _ => .inr rfl

theorem clean_readMessageByClientId (h : w.Clean) (u : UserId) (id : Bytes) :
    (readMessageByClientId u id).Leaves Watch.see (fun _ w => w.Clean) w := by
  refine .call trivial fun r => ?_
  cases r with
  | ok row =>
    cases row with
    | none => exact .pure h
    | some row =>
      cases row with
      | none => exact .pure h
      | some m => exact .pure h
  | error errno =>
    exact .bind (leaves_statementFault (Q := fun _ w => w.Clean) rfl fun _ => h.fault rfl)
      fun _ _ h => .pure h

theorem clean_selectConversation (h : w.Clean) (key : Bytes) :
    (selectConversation key).Leaves Watch.see (fun _ w => w.Clean) w := by
  refine .call trivial fun r => ?_
  cases r with
  | ok row =>
    cases row with
    | none => exact .pure h
    | some id => exact .pure h
  | error errno =>
    exact .bind (leaves_statementFault (Q := fun _ w => w.Clean) rfl fun _ => h.fault rfl)
      fun _ _ h => .pure h

/-- `START TRANSACTION`: if it fails the connection is as clean as before. -/
theorem clean_begin (h : w.Clean) {α : Type} {a : α} {p : Work α}
    (hp : ∀ w, p.Leaves Watch.see (fun _ w => w.Clean) w) :
    (executeCommand .startTransaction >>= fun begun => if begun = true then p else pure a).Leaves
      Watch.see (fun _ w => w.Clean) w := by
  refine .bind (leaves_executeCommand (Q := fun begun w => begun = false → w.Clean)
    (fun h => nomatch h) fun _ _ => h.fault rfl) fun begun w hbegun => ?_
  exact .ite (fun _ => hp w) fun hno => .pure (hbegun (Bool.eq_false_of_not_eq_true hno))

/-- `COMMIT` closes the transaction, or a failure exit follows. -/
theorem clean_commit (w : Watch) {α : Type} {a : α} {p : Work α}
    (hp : ∀ w, p.Leaves Watch.see (fun _ w => w.Clean) w) :
    (executeCommand .commit >>= fun done => if done = true then pure a else p).Leaves Watch.see
      (fun _ w => w.Clean) w := by
  refine .bind (leaves_executeCommand (Q := fun done w => done = true → w.Clean)
    (fun _ => .inl rfl) fun _ h => nomatch h) fun done w hdone => ?_
  exact .ite (fun h => .pure (hdone h)) fun _ => hp w

theorem clean_abandon (w : Watch) (status : RepositoryStatus) :
    (abandon status).Leaves Watch.see (fun _ w => w.Clean) w :=
  .bind (clean_rollback w) fun _ _ h => .pure h

theorem clean_abandonMessage (w : Watch) (status : RepositoryStatus) :
    (abandonMessage status).Leaves Watch.see (fun _ w => w.Clean) w :=
  .bind (clean_rollback w) fun _ _ h => .pure h

theorem clean_insertMembers (w : Watch) (id : Bytes) (users : List UserId) :
    (insertMembers id users).Leaves Watch.see (fun _ w => w.Clean) w := by
  induction users generalizing w with
  | nil => exact clean_commit w fun w => clean_abandon w _
  | cons user rest ih =>
    refine .after fun r w => ?_
    cases r with
    | ok rows => exact ih w
    | error e => exact clean_abandon w _

theorem clean_findOrCreateSingleConversation (h : w.Clean) (a b : UserId) :
    (findOrCreateSingleConversation a b).Leaves Watch.see (fun _ w => w.Clean) w := by
  refine .bind (clean_selectConversation h _) fun existing w h => .exit h fun _ =>
    clean_begin h fun w => .after fun r w => ?_
  cases r with
  | ok rows => exact clean_insertMembers w _ _
  | error e =>
    refine .bind (clean_rollback w) fun _ w h => .ite (fun _ => ?_) fun _ => .pure h
    exact .bind (clean_selectConversation h _) fun _ _ h => .pure h

theorem clean_insertMessage (w : Watch) (m : MessageRecord) (sequence : Int) :
    (insertMessage m sequence).Leaves Watch.see (fun _ w => w.Clean) w := by
  refine .after fun r w => ?_
  cases r with
  | ok rows => exact clean_commit w fun w => clean_abandonMessage w _
  | error e =>
    refine .bind (clean_rollback w) fun _ w h => .ite (fun _ => ?_) fun _ => .pure h
    refine .bind (clean_readMessageByClientId h _ _) fun duplicate w h => ?_
    split
    · exact .pure h
    · exact .pure h

theorem clean_allocateSequence (w : Watch) (m : MessageRecord) :
    (allocateSequence m).Leaves Watch.see (fun _ w => w.Clean) w := by
  refine .after fun r w => ?_
  cases r with
  | error e => exact clean_abandonMessage w _
  | ok rows =>
    refine .ite (fun _ => clean_abandonMessage w _) fun _ => .after fun sequence w => ?_
    cases sequence with
    | none => exact clean_abandonMessage w _
    | some sequence =>
      exact .ite (fun _ => clean_abandonMessage w _) fun _ => clean_insertMessage w m sequence

theorem clean_upsertMembers (w : Watch) (m : MessageRecord) (users : List UserId) :
    (upsertMembers m users).Leaves Watch.see (fun _ w => w.Clean) w := by
  induction users generalizing w with
  | nil => exact clean_allocateSequence w m
  | cons user rest ih =>
    refine .after fun r w => ?_
    cases r with
    | ok rows => exact ih w
    | error e => exact clean_abandonMessage w _

theorem clean_createMessage (h : w.Clean) (m : MessageRecord) :
    (createMessage m).Leaves Watch.see (fun _ w => w.Clean) w := by
  refine .bind (clean_readMessageByClientId h _ _) fun existing w h => ?_
  split
  · exact .pure h
  · refine clean_begin h fun w => .after fun r w => ?_
    cases r with
    | ok rows => exact clean_upsertMembers w m _
    | error e => exact clean_abandonMessage w _
  · exact .pure h

end MessageRepository

/-! ## What `GroupRepository` returns -/

/-- During `createGroup`, until a `ROLLBACK` is tried: the connection is marked
bad exactly if it was lost. -/
structure Watch.Working (w : Watch) : Prop where
  refused : w.refused = false
  reusable : w.session.reusable = !w.lost

/-- An open transaction on a connection for reuse means that `ROLLBACK` failed on
a connection that was not lost, and the other way round. -/
def Watch.Settled (w : Watch) : Prop :=
  (w.session.txnOpen = true ∧ w.session.reusable = true) ↔ (w.refused = true ∧ w.lost = false)

namespace GroupRepository

variable {w : Watch} {e : Event Sql}

theorem working_fault (h : w.Working) (herr : (errorOf e).isSome = true)
    (hno : rollbackRefused e = false) : (w.fault e).Working := by
  refine ⟨?_, fault_reusable herr h.reusable⟩
  rw [fault_refused, h.refused, hno]
  rfl

/-- A call that succeeded. -/
theorem working_see (h : w.Working) (herr : errorOf e = none) (hno : rollbackRefused e = false)
    (hkept : (w.session.see e).reusable = w.session.reusable) : (w.see e).Working := by
  refine ⟨?_, ?_⟩
  · show (w.refused || rollbackRefused e) = false
    rw [h.refused, hno]
    rfl
  · show (w.session.see e).reusable = !(w.lost || connectionLost e)
    have hlost : connectionLost e = false := by
      unfold connectionLost
      rw [herr]
      rfl
    rw [hkept, h.reusable, hlost, Bool.or_false]

theorem Working.settled (h : w.Working) (hclosed : w.session.txnOpen = false) : w.Settled := by
  constructor
  · rintro ⟨hopen, -⟩
    rw [hclosed] at hopen
    cases hopen
  · rintro ⟨hrefused, -⟩
    rw [h.refused] at hrefused
    cases hrefused

theorem settled_rollback (h : w.Working) (hopen : w.session.txnOpen = true) :
    rollback.Leaves Watch.see (fun _ w => w.Settled) w := by
  refine .bind (leaves_executeCommand (Q := fun _ w => w.Settled) ?_ fun errno => ?_)
    fun _ _ h => .pure h
  · exact Working.settled (working_see h rfl rfl rfl) rfl
  · have htxn := fault_txnOpen (w := w) (e := ⟨.query .rollback, .error errno⟩) rfl
    have hreusable := fault_reusable (e := ⟨.query .rollback, .error errno⟩) rfl h.reusable
    have hrefused : (w.fault ⟨.query .rollback, .error errno⟩).refused = true := by
      rw [fault_refused]
      exact Bool.or_true _
    unfold Watch.Settled
    rw [htxn, hopen, hreusable, hrefused]
    simp

theorem settled_abandon (h : w.Working) (hopen : w.session.txnOpen = true)
    (status : RepositoryStatus) : (abandon status).Leaves Watch.see (fun _ w => w.Settled) w :=
  .bind (settled_rollback h hopen) fun _ _ h => .pure h

/-- A statement inside the transaction. -/
theorem working_executeUpdate (h : w.Working) (hopen : w.session.txnOpen = true)
    (statement : SqlUpdate) (fallback : RepositoryStatus) :
    (executeUpdate statement fallback).Leaves Watch.see
      (fun _ w => w.Working ∧ w.session.txnOpen = true) w :=
  leaves_executeUpdate (fun _ => ⟨working_see h rfl rfl rfl, hopen⟩)
    fun _ _ => ⟨working_fault h rfl rfl, (fault_txnOpen rfl).trans hopen⟩

theorem settled_insertMembers (h : w.Working) (hopen : w.session.txnOpen = true)
    (group : GroupRecord) (members : List GroupMemberRecord) :
    (insertMembers group members).Leaves Watch.see (fun _ w => w.Settled) w := by
  induction members generalizing w with
  | nil =>
    refine .bind (leaves_executeCommand
      (Q := fun done w => w.Working ∧ w.session.txnOpen = !done)
      ⟨working_see h rfl rfl rfl, rfl⟩
      fun _ => ⟨working_fault h rfl rfl, (fault_txnOpen rfl).trans hopen⟩)
      fun done w hw => ?_
    cases done with
    | true => exact .pure (Working.settled hw.1 hw.2)
    | false => exact settled_abandon hw.1 hw.2 _
  | cons member rest ih =>
    refine .bind (working_executeUpdate h hopen _ _) fun r w hw => ?_
    cases r with
    | ok rows => exact ih hw.1 hw.2
    | error e => exact settled_abandon hw.1 hw.2 _

theorem settled_createGroup (h : w.Working) (hclosed : w.session.txnOpen = false)
    (group : GroupRecord) (members : List GroupMemberRecord) :
    (createGroup group members).Leaves Watch.see (fun _ w => w.Settled) w := by
  refine .bind (leaves_executeCommand
    (Q := fun begun w => w.Working ∧ w.session.txnOpen = begun)
    ⟨working_see h rfl rfl rfl, rfl⟩
    fun _ => ⟨working_fault h rfl rfl, (fault_txnOpen rfl).trans hclosed⟩) fun begun w hw => ?_
  cases begun with
  | false => exact .pure (Working.settled hw.1 hw.2)
  | true =>
    refine .bind (working_executeUpdate hw.1 hw.2 _ _) fun r w hw => ?_
    cases r with
    | error e => exact settled_abandon hw.1 hw.2 _
    | ok rows =>
      refine .bind (working_executeUpdate hw.1 hw.2 _ _) fun r w hw => ?_
      cases r with
      | error e => exact settled_abandon hw.1 hw.2 _
      | ok rows => exact settled_insertMembers hw.1 hw.2 group members

end GroupRepository

/-! ## Returning the connection -/

/-- The connection after the calls of a run, starting from one without a
transaction. -/
def SqlSession.after (τ : List (Event Sql)) : SqlSession := τ.foldl SqlSession.see {}

/-- What `returnConnection` does with a connection marked bad: the idle queue
stays as it is. -/
theorem DbPool.takeBack_bad (pool : DbPool) (i : Nat) (c : Client) (createTime now : Int)
    {reusable : Bool} (ping : Bool) (h : reusable = false) :
    (pool.takeBack i c createTime (reusable && ping) now).idleConnections =
      pool.idleConnections := by
  unfold DbPool.takeBack
  rw [h, if_pos (by simp)]
  rfl

/-- For every operation and every pattern of answers: the connection goes back
with no transaction open, or marked bad, so that the pool does not put it into
the idle queue; except exactly when the operation is `createGroup` and its
`ROLLBACK` failed while no call failed for a lost connection. -/
theorem returned_clean_iff {op : Transaction} {τ : List (Event Sql)} (hrun : op.work.Runs τ ()) :
    ((SqlSession.after τ).txnOpen = false ∨
        (SqlSession.after τ).reusable = false ∧
          ∀ (pool : DbPool) (i : Nat) (c : Client) (createTime now : Int) (ping : Bool),
            (pool.takeBack i c createTime ((SqlSession.after τ).reusable && ping)
              now).idleConnections = pool.idleConnections) ↔
      ¬ (op.ofGroup = true ∧ τ.any rollbackRefused = true ∧ τ.any connectionLost = false) := by
  -- the pool closes a bad connection, whatever the ping says
  have hpool : ((SqlSession.after τ).txnOpen = false ∨
        (SqlSession.after τ).reusable = false ∧
          ∀ (pool : DbPool) (i : Nat) (c : Client) (createTime now : Int) (ping : Bool),
            (pool.takeBack i c createTime ((SqlSession.after τ).reusable && ping)
              now).idleConnections = pool.idleConnections) ↔
      (SqlSession.after τ).txnOpen = false ∨ (SqlSession.after τ).reusable = false :=
    or_congr_right ⟨fun h => h.1, fun h =>
      ⟨h, fun pool i c createTime now ping => pool.takeBack_bad i c createTime now ping h⟩⟩
  rw [hpool]
  have hfold := foldl_see {} τ
  cases op with
  | findOrCreateSingleConversation a b =>
    have hleaves : (Transaction.findOrCreateSingleConversation a b).work.Leaves Watch.see
        (fun _ w => w.Clean) {} :=
      .bind (MessageRepository.clean_findOrCreateSingleConversation (.inl rfl) a b)
        fun _ _ h => .pure h
    have hclean := hleaves.of_runs hrun
    rw [hfold] at hclean
    exact iff_of_true hclean fun h => nomatch h.1
  | createMessage m =>
    have hleaves : (Transaction.createMessage m).work.Leaves Watch.see (fun _ w => w.Clean) {} :=
      .bind (MessageRepository.clean_createMessage (.inl rfl) m) fun _ _ h => .pure h
    have hclean := hleaves.of_runs hrun
    rw [hfold] at hclean
    exact iff_of_true hclean fun h => nomatch h.1
  | createGroup group members =>
    have hleaves : (Transaction.createGroup group members).work.Leaves Watch.see
        (fun _ w => w.Settled) {} :=
      .bind (GroupRepository.settled_createGroup ⟨rfl, rfl⟩ rfl group members)
        fun _ _ h => .pure h
    have hsettled := hleaves.of_runs hrun
    rw [hfold] at hsettled
    have hiff : ((SqlSession.after τ).txnOpen = true ∧ (SqlSession.after τ).reusable = true) ↔
        (τ.any rollbackRefused = true ∧ τ.any connectionLost = false) := by
      simpa [Watch.Settled, SqlSession.after] using hsettled
    rw [show Transaction.ofGroup (.createGroup group members) = true from rfl]
    simp only [true_and, ← hiff]
    cases (SqlSession.after τ).txnOpen <;> cases (SqlSession.after τ).reusable <;> simp

/-- A group, a failed insert (1205, lock wait timeout) and a refused `ROLLBACK`
(1317, query interrupted). -/
def refusedRollback (group : GroupRecord) : List (Event Sql) :=
  [⟨.query .startTransaction, .ok ()⟩,
    ⟨.update (.insertConversation group.conversationId .group none), .error 1205⟩,
    ⟨.query .rollback, .error 1317⟩]

/-- The run is one of `createGroup`. -/
theorem runs_refusedRollback (group : GroupRecord) (members : List GroupMemberRecord) :
    (Transaction.createGroup group members).work.Runs (refusedRollback group) () :=
  ⟨.ok (), _, rfl, .error 1205, _, rfl, .error 1317, _, rfl, rfl, rfl⟩

/-- A group and its owner. -/
def club : GroupRecord :=
  { id := str "g1", name := str "club", ownerId := 1, conversationId := str "conv_g1" }

/-- After this run of `createGroup` a transaction is open on the connection, which
is not marked bad; if it answers the ping of its return, it is the next one that
is lent. -/
theorem open_transaction_returned :
    (Transaction.createGroup club []).work.Runs (refusedRollback club) () ∧
      (SqlSession.after (refusedRollback club)).txnOpen = true ∧
      (SqlSession.after (refusedRollback club)).reusable = true ∧
      ((({ totalConnections := 1, initialized := true, clients := [{}] } : DbPool).takeBack 0 {} 5
        ((SqlSession.after (refusedRollback club)).reusable && true) 9).idleConnections =
          [{ createTime := 5, lastReturnTime := 9 }]) :=
  ⟨runs_refusedRollback club [], rfl, rfl, rfl⟩

/-- The same run with a lost connection: it is marked bad. -/
theorem returned_clean_lost :
    SqlSession.after [⟨.query .startTransaction, .ok ()⟩,
        ⟨.update (.insertConversation club.conversationId .group none), .error 2013⟩,
        ⟨.markBad, ()⟩, ⟨.query .rollback, .error 2006⟩, ⟨.markBad, ()⟩] =
      { txnOpen := true, reusable := false } ∧
    ¬ (SqlSession.after (refusedRollback club)).txnOpen = false := by
  have hrun : (Transaction.createGroup club []).work.Runs
      [⟨.query .startTransaction, .ok ()⟩,
        ⟨.update (.insertConversation club.conversationId .group none), .error 2013⟩,
        ⟨.markBad, ()⟩, ⟨.query .rollback, .error 2006⟩, ⟨.markBad, ()⟩] () :=
    ⟨.ok (), _, rfl, .error 2013, _, rfl, (), _, rfl, .error 2006, _, rfl, (), _, rfl, rfl, rfl⟩
  have hclean := (returned_clean_iff hrun).2 fun h => nomatch h.2.2
  refine ⟨?_, fun h => (returned_clean_iff (runs_refusedRollback club [])).1 (.inl h)
    ⟨rfl, rfl, rfl⟩⟩
  rcases hclean with hopen | hbad
  · cases hopen
  · exact congrArg (SqlSession.mk true) hbad.1

end ChatServer.Db
