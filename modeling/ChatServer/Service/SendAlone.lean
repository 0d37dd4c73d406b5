import ChatServer.Service.SendInv

/-!
# The store phase of one call, run alone

What `sendMessage` and the fan-out do with the tables when nobody else is at work
and every statement is carried out, as a function. `run_alone` connects it with the
transition system: a call that has the database to itself ends with the function's
answer and leaves its tables. `Tidy.createAlone` carries the invariant of the tables
over.
-/

namespace ChatServer.Service

open Base Db

/-! ## The function -/

section

variable (coll : Collation)

/-- The tables after a statement. -/
def grant (t : Tables) (g : Grant) : Tables := (store coll).applyAll t g.writes

/-- The tables after the upserts of `createMessage`. -/
def upserted (t : Tables) (m : MessageRecord) : Tables :=
  let t₁ := grant coll t
    (upsertConversation coll t m.conversationId (singleChatKey m.fromUserId m.toUserId))
  let t₂ := grant coll t₁ (upsertMember coll t₁ m.conversationId m.fromUserId)
  grant coll t₂ (upsertMember coll t₂ m.conversationId m.toUserId)

theorem upserted_eq_foldl (t : Tables) (m : MessageRecord) :
    upserted coll t m = [m.fromUserId, m.toUserId].foldl
      (fun t user => grant coll t (upsertMember coll t m.conversationId user))
      (grant coll t (upsertConversation coll t m.conversationId
        (singleChatKey m.fromUserId m.toUserId))) := rfl

/-- `createMessage` from the allocation on: the tables and the number of the
message, or the status after a rollback. -/
def numbered (t : Tables) (m : MessageRecord) : Except RepositoryStatus (Tables × Int) :=
  match t.conversationsWith coll m.conversationId with
  | [row] =>
    let sequence := row.lastSeq + 1
    let allocated := t.apply coll (.setLastSeq m.conversationId sequence)
    -- `last_seq` is a `BIGINT`
    if ¬ sequence < 2 ^ 63 ∨ sequence ≤ 0 then .error .queryFailed
    else if duplicateEntry coll allocated (insertedRow m sequence) then .error .duplicate
    else .ok (allocated.apply coll (.insertMessage (insertedRow m sequence)), sequence)
  | _ => .error .queryFailed

/-- `createMessage`. -/
def createAlone (t : Tables) (m : MessageRecord) : Tables × CreateMessageResult :=
  match readMessageByClientId coll t m with
  | some row => (t, .ok row false)
  | none =>
    match numbered coll (upserted coll t m) m with
    | .ok (t', sequence) => (t', .ok { m with sequence } true)
    | .error status => (t, .failed status)

/-- What `createMessage` returns and leaves: the tables `t` again after a rollback. -/
def concluded (t : Tables) (m : MessageRecord) :
    Except RepositoryStatus (Tables × Int) → Tables × CreateMessageResult
  | .ok (t', sequence) => (t', .ok { m with sequence } true)
  | .error status => (t, .failed status)

theorem createAlone_of_some {t : Tables} {m row : MessageRecord}
    (h : readMessageByClientId coll t m = some row) : createAlone coll t m = (t, .ok row false) := by
  unfold createAlone
  rw [h]

theorem createAlone_of_none {t : Tables} {m : MessageRecord}
    (h : readMessageByClientId coll t m = none) :
    createAlone coll t m = concluded t m (numbered coll (upserted coll t m) m) := by
  unfold createAlone
  rw [h]
  rfl

/-- With the cache of sent messages: only the message the cache names is taken. -/
def storeAlone (t : Tables) (cached : Option Bytes) (m : MessageRecord) :
    Tables × CreateMessageResult :=
  match cached, readMessageByClientId coll t m with
  | some id, some row => if row.id = id then (t, .ok row false) else createAlone coll t m
  | _, _ => createAlone coll t m

end

/-! ## The invariant of the tables -/

/-- Every view is settled: no call is half done. -/
def Tidy (coll : Collation) (t : Tables) : Prop := ∀ lk, Settled lk (t.view coll lk)

variable {coll : Collation} {t : Tables} {m : MessageRecord}

theorem Tidy.upsertConversation (h : Tidy coll t) (id key : Bytes) :
    Tidy coll (grant coll t (Db.upsertConversation coll t id key)) :=
  Clean.upsertConversation (t := ⟨[], []⟩) h id key

theorem Tidy.upsertMember (h : Tidy coll t) (id : Bytes) (user : UserId) :
    Tidy coll (grant coll t (Db.upsertMember coll t id user)) :=
  Clean.upsertMember (t := ⟨[], []⟩) h id user

theorem Tidy.upserted (h : Tidy coll t) (m : MessageRecord) : Tidy coll (upserted coll t m) :=
  ((h.upsertConversation _ _).upsertMember _ _).upsertMember _ _

/-- The counter of a conversation's row is the number of its messages. -/
theorem Tidy.row (h : Tidy coll t) {id : Bytes} {row : Conversation}
    (hrow : t.conversationsWith coll id = [row]) :
    ∃ n : ℕ, row.lastSeq = n ∧ ((t.messagesOf coll id).map (·.sequence)) = oneTo n := by
  have hview : (t.view coll (.conversation (coll id))).1 = [row.lastSeq] := by
    show (t.conversationsWith coll id).map (·.lastSeq) = _
    rw [hrow]
    rfl
  rcases h (.conversation (coll id)) with hempty | ⟨n, hn, hused⟩
  · rw [hempty] at hview
    cases hview
  · rw [hn] at hview
    refine ⟨n, (List.cons.inj hview).1.symm, ?_⟩
    have hmessages : (t.view coll (.conversation (coll id))).2.map (·.sequence) =
        (t.messagesOf coll id).map (·.sequence) := by
      show ((t.messagesOf coll id).map (·.core)).map (·.sequence) = _
      rw [List.map_map]
      rfl
    rw [← hmessages, hused]

/-- What `numbered` leaves when it succeeds. -/
theorem numbered_eq_ok {t' : Tables} {sequence : Int} (h : numbered coll t m = .ok (t', sequence)) :
    ∃ row, t.conversationsWith coll m.conversationId = [row] ∧ sequence = row.lastSeq + 1 ∧
      duplicateEntry coll (t.apply coll (.setLastSeq m.conversationId sequence))
        (insertedRow m sequence) = false ∧
      t' = (t.apply coll (.setLastSeq m.conversationId sequence)).apply coll
        (.insertMessage (insertedRow m sequence)) := by
  unfold numbered at h
  split at h
  next row hrow =>
    simp only at h
    split at h
    · cases h
    · split at h
      · cases h
      next hdup =>
        obtain ⟨rfl, rfl⟩ := Prod.mk.inj (Except.ok.inj h)
        exact ⟨row, hrow, rfl, Bool.eq_false_of_not_eq_true hdup, rfl⟩
  next => cases h

theorem Tidy.numbered (h : Tidy coll t) {t' : Tables} {sequence : Int}
    (hn : numbered coll t m = .ok (t', sequence)) : Tidy coll t' := by
  obtain ⟨row, hrow, rfl, hdup, rfl⟩ := numbered_eq_ok hn
  obtain ⟨n, hlast, hnumbered⟩ := Clean.allocate (t := ⟨[], []⟩) h hrow
  rw [hlast] at hnumbered hdup ⊢
  exact hnumbered.insert hdup []

theorem Tidy.createAlone (h : Tidy coll t) (m : MessageRecord) :
    Tidy coll (createAlone coll t m).1 := by
  unfold Service.createAlone
  split
  · exact h
  · split
    next t' sequence hn => exact (h.upserted m).numbered hn
    next => exact h

/-! ## A call that has the database to itself -/

section

variable {ι κ : Type} {pending : κ → MessageRecord} {s : State ι κ} {i : ι} {k : κ}
  {log : List (Commit κ)} {txn : Option (Txn Write Lock)} {pc : Pc}

/-- The call is at `pc` on connection `i`, and no other transaction is open. -/
structure Busy (s : State ι κ) (i : ι) (k : κ) (log : List (Commit κ))
    (txn : Option (Txn Write Lock)) (pc : Pc) : Prop where
  log : s.log = log
  job : (s.conns i).job = some (k, pc)
  txn : (s.conns i).txn = txn
  up : (s.conns i).link = .up
  reusable : (s.conns i).reusable = true
  alone : ∀ j, j ≠ i → (s.conns j).txn = none

/-- The connection is idle, and no transaction is open. -/
structure Idle (s : State ι κ) (i : ι) (log : List (Commit κ)) : Prop where
  log : s.log = log
  job : (s.conns i).job = none
  txn : (s.conns i).txn = none
  up : (s.conns i).link = .up
  alone : ∀ j, j ≠ i → (s.conns j).txn = none

/-- The tables behind a log. -/
def tablesOf (coll : Collation) (log : List (Commit κ)) : Tables :=
  (store coll).applyAll {} (log.flatMap (·.writes))

theorem tables_eq (h : s.log = log) : s.tables coll = tablesOf coll log := by
  unfold State.tables
  rw [h]
  rfl

theorem Busy.own (h : Busy s i k log txn pc) :
    s.own coll i = (store coll).applyAll (tablesOf coll log) (txn.elim [] (·.writes)) := by
  unfold State.own State.txns State.tables tablesOf
  rw [h.log, h.txn]

theorem Busy.free (h : Busy s i k log txn pc) (ks : List Lock) : Free s.txns i ks := by
  intro j hj u hu
  rw [State.txns, h.alone j hj] at hu
  cases hu

variable [DecidableEq ι]

/-- The other connections stay without a transaction. -/
theorem update_txn (h : ∀ j, j ≠ i → (s.conns j).txn = none) (c : Conn κ) :
    ∀ j, j ≠ i → (Function.update s.conns i c j).txn = none := by
  intro j hj
  rw [Function.update_of_ne hj]
  exact h j hj

/-- The connection goes on with another statement. -/
theorem Busy.setConn (h : Busy s i k log txn pc) {c : Conn κ} {txn' : Option (Txn Write Lock)}
    {pc' : Pc} (htxn : c.txn = txn') (hup : c.link = .up) (hreusable : c.reusable = true) :
    Busy (s.setConn i (c.goto k pc')) i k log txn' pc' := by
  refine ⟨h.log, ?_, ?_, ?_, ?_, ?_⟩
  · simp [State.setConn, Conn.goto]
  · simpa [State.setConn, Conn.goto] using htxn
  · simpa [State.setConn, Conn.goto] using hup
  · simpa [State.setConn, Conn.goto] using hreusable
  · exact update_txn h.alone _

theorem Busy.goto (h : Busy s i k log txn pc) (pc' : Pc) :
    Busy (s.setConn i ((s.conns i).goto k pc')) i k log txn pc' :=
  h.setConn h.txn h.up h.reusable

variable [Fintype ι] [DecidableEq κ]

/-- There is a run in which the call ends with the result `p.2` and leaves the
tables `p.1`. -/
def Finishes (coll : Collation) (pending : κ → MessageRecord) (k : κ) (s : State ι κ)
    (p : Tables × CreateMessageResult) : Prop :=
  ∃ labels s', (lts coll pending).run s labels = some s' ∧ s'.tables coll = p.1 ∧
    s'.calls k = .done (answer (pending k) p.2)

variable {l : Label ι κ} {p : Tables × CreateMessageResult} {u : Txn Write Lock} {T : Tables}

theorem Finishes.step {s₁ : State ι κ} (h : (lts coll pending).step s l = some s₁)
    (hrun : Finishes coll pending k s₁ p) : Finishes coll pending k s p := by
  obtain ⟨labels, s', hrun, hend⟩ := hrun
  refine ⟨l :: labels, s', ?_, hend⟩
  show ((lts coll pending).step s l).bind _ = _
  rw [h]
  exact hrun

/-- The call's answer is there. -/
theorem Finishes.now (htables : s.tables coll = p.1)
    (hanswer : s.calls k = .done (answer (pending k) p.2)) : Finishes coll pending k s p :=
  ⟨[], s, rfl, htables, hanswer⟩

/-- The next statement is carried out. -/
theorem Busy.exec (coll : Collation) (pending : κ → MessageRecord)
    (h : Busy s i k log txn pc) :
    (lts coll pending).step s (.exec i .done) = s.answered pending coll i k pc := by
  show s.exec pending coll i .done = _
  unfold State.exec
  rw [h.job]
  simp [h.up]

/-- A statement that takes locks, inside a transaction. -/
theorem Busy.granted (h : Busy s i k log (some u) pc) {c : Conn κ} {g : Grant} {next : Pc}
    (hstep : (lts coll pending).step s l = s.granted i c k g next)
    (hc : c.txn = (s.conns i).txn ∧ c.link = (s.conns i).link ∧ c.reusable = (s.conns i).reusable)
    (hnext : ∀ s', Busy s' i k log (some (extend u g)) next →
      (s'.conns i).lastInsertId = c.lastInsertId → Finishes coll pending k s' p) :
    Finishes coll pending k s p := by
  unfold State.granted at hstep
  rw [if_pos (h.free g.locks)] at hstep
  unfold State.execute at hstep
  rw [hc.1, h.txn] at hstep
  refine .step hstep (hnext _ (h.setConn rfl (hc.2.1.trans h.up) (hc.2.2.trans h.reusable)) ?_)
  simp [State.setConn, Conn.goto]

/-! ### Statement by statement, from the end -/

theorem Busy.commit {q : Int} (h : Busy s i k log (some u) (.commit q)) :
    Finishes coll pending k s ((store coll).applyAll (tablesOf coll log) u.writes,
      .ok { pending k with sequence := q } true) := by
  refine .step ((h.exec coll pending).trans rfl) (.now ?_ (Function.update_self ..))
  have hlog : (s.commitTxn i (some k)).log = log ++ [⟨some k, u.writes⟩] := by
    unfold State.commitTxn State.txns
    rw [h.txn]
    show s.log ++ _ = _
    rw [h.log]
  refine (tables_eq hlog).trans ?_
  rw [tablesOf, List.flatMap_append, Store.applyAll_append]
  simp [tablesOf]

section

-- the message is not in the tables
variable (hnone : readMessageByClientId coll (tablesOf coll log) (pending k) = none)

include hnone

theorem Busy.reread (h : Busy s i k log none .reread) :
    Finishes coll pending k s (tablesOf coll log, .failed .duplicate) := by
  have hstep : s.answered pending coll i k .reread =
      some ((s.markFailed k).finishCreate pending i (s.conns i) k (.failed .duplicate)) := by
    unfold State.answered
    rw [h.own]
    simp only [Option.elim_none, Store.applyAll_nil, hnone]
  exact .step ((h.exec coll pending).trans hstep) (.now (tables_eq h.log) (Function.update_self ..))

/-- The failure exits, when the message is not there. -/
theorem Busy.rollback {next : AfterRollback} {status : RepositoryStatus}
    (h : Busy s i k log txn (.rollback next))
    (hstatus : next = .fail status ∨ next = .reread ∧ status = .duplicate) :
    Finishes coll pending k s (tablesOf coll log, .failed status) := by
  rcases hstatus with rfl | ⟨rfl, rfl⟩
  · exact .step ((h.exec coll pending).trans rfl) (.now (tables_eq h.log) (Function.update_self ..))
  · have hbusy : Busy (s.setConn i (({ s.conns i with txn := none } : Conn κ).goto k .reread)) i k
        log none .reread := h.setConn rfl h.up h.reusable
    exact .step ((h.exec coll pending).trans rfl) (hbusy.reread hnone)

/-- A failure exit that the repository decides on itself. -/
theorem Busy.abandon {status : RepositoryStatus} (h : Busy s i k log txn pc)
    (hstep : (lts coll pending).step s l = some ((s.markFailed k).setConn i
      ((s.conns i).goto k (.rollback (.fail status))))) :
    Finishes coll pending k s (tablesOf coll log, .failed status) := by
  have hfailed : Busy (s.markFailed k) i k log txn pc :=
    ⟨h.log, h.job, h.txn, h.up, h.reusable, h.alone⟩
  exact .step hstep ((hfailed.goto _).rollback hnone (.inl rfl))

section

-- the transaction sees the tables `T`
variable (hT : (store coll).applyAll (tablesOf coll log) u.writes = T)

include hT

omit hnone [DecidableEq κ] in
theorem applyAll_extend (g : Grant) :
    (store coll).applyAll (tablesOf coll log) (extend u g).writes = grant coll T g := by
  rw [extend, Store.applyAll_append, hT]
  rfl

/-- The insert of the message, in the tables `T`. -/
theorem Busy.insert {q : Int} (h : Busy s i k log (some u) (.insert q)) :
    Finishes coll pending k s (concluded (tablesOf coll log) (pending k)
      (if duplicateEntry coll T (insertedRow (pending k) q) = true then .error .duplicate
      else .ok (T.apply coll (.insertMessage (insertedRow (pending k) q)), q))) := by
  have hown : s.own coll i = T := h.own.trans hT
  have hstep := h.exec coll pending
  unfold State.answered at hstep
  simp only [hown] at hstep
  split
  next hdup =>
    rw [if_pos hdup] at hstep
    exact .step hstep ((h.goto _).rollback hnone (.inr ⟨rfl, rfl⟩))
  next hdup =>
    rw [if_neg hdup] at hstep
    refine h.granted hstep ⟨rfl, rfl, rfl⟩ fun s' hbusy _ => ?_
    have hcommit : Finishes coll pending k s' _ := hbusy.commit
    rwa [extend, Store.applyAll_concat, hT] at hcommit

/-- From the allocation on, with the conversation's row. -/
theorem Busy.allocateRow {row : Conversation} (h : Busy s i k log (some u) .allocate)
    (hrow : T.conversationsWith coll (pending k).conversationId = [row]) :
    Finishes coll pending k s
      (concluded (tablesOf coll log) (pending k) (numbered coll T (pending k))) := by
  have hown : s.own coll i = T := h.own.trans hT
  have hstep := h.exec coll pending
  unfold State.answered at hstep
  unfold numbered
  simp only [hown, hrow] at hstep ⊢
  by_cases hmax : row.lastSeq + 1 < 2 ^ 63
  · rw [if_pos hmax] at hstep
    refine h.granted hstep ⟨rfl, rfl, rfl⟩ fun s' hbusy hlast => ?_
    have hselect := hbusy.exec coll pending
    unfold State.answered at hselect
    simp only [hlast] at hselect
    by_cases hpos : row.lastSeq + 1 ≤ 0
    · rw [if_pos hpos] at hselect
      rw [if_pos (.inr hpos)]
      exact hbusy.abandon hnone hselect
    · rw [if_neg hpos] at hselect
      rw [if_neg (by omega)]
      exact .step hselect ((hbusy.goto _).insert hnone (applyAll_extend hT _))
  · rw [if_neg hmax] at hstep
    rw [if_pos (.inl hmax)]
    exact h.abandon hnone hstep

/-- From the allocation on. -/
theorem Busy.allocate (h : Busy s i k log (some u) .allocate) :
    Finishes coll pending k s
      (concluded (tablesOf coll log) (pending k) (numbered coll T (pending k))) := by
  have hown : s.own coll i = T := h.own.trans hT
  have hstep := h.exec coll pending
  unfold State.answered at hstep
  cases hrows : T.conversationsWith coll (pending k).conversationId with
  | nil =>
    unfold numbered
    simp only [hown, hrows] at hstep ⊢
    exact h.abandon hnone hstep
  | cons row rest =>
    cases rest with
    | nil => exact h.allocateRow hnone hT hrows
    | cons row' rest =>
      unfold numbered
      simp only [hown, hrows] at hstep ⊢
      exact h.abandon hnone hstep

/-- From the upserts of the members on. -/
theorem Busy.members (users : List UserId) (user : UserId)
    (h : Busy s i k log (some u) (.member user users)) :
    Finishes coll pending k s
      (concluded (tablesOf coll log) (pending k) (numbered coll ((user :: users).foldl
        (fun T user => grant coll T (upsertMember coll T (pending k).conversationId user)) T)
        (pending k))) := by
  have hown : s.own coll i = T := h.own.trans hT
  have hstep := h.exec coll pending
  unfold State.answered at hstep
  simp only [hown] at hstep
  induction users generalizing s u T user with
  | nil =>
    exact h.granted hstep ⟨rfl, rfl, rfl⟩ fun s' hbusy _ =>
      hbusy.allocate hnone (applyAll_extend hT _)
  | cons next rest ih =>
    refine h.granted hstep ⟨rfl, rfl, rfl⟩ fun s' hbusy _ => ?_
    have hT' := applyAll_extend hT (upsertMember coll T (pending k).conversationId user)
    have hstep' := hbusy.exec coll pending
    unfold State.answered at hstep'
    simp only [hbusy.own.trans hT'] at hstep'
    exact ih hT' next hbusy (hbusy.own.trans hT') hstep'

end

/-- From the upsert of the conversation on. -/
theorem Busy.conversation (h : Busy s i k log (some ⟨[], []⟩) .conversation) :
    Finishes coll pending k s
      (concluded (tablesOf coll log) (pending k)
        (numbered coll (upserted coll (tablesOf coll log) (pending k)) (pending k))) := by
  have hown : s.own coll i = tablesOf coll log := h.own
  have hstep := h.exec coll pending
  unfold State.answered at hstep
  simp only [hown] at hstep
  rw [upserted_eq_foldl]
  exact h.granted hstep ⟨rfl, rfl, rfl⟩ fun s' hbusy _ => hbusy.members hnone rfl
    [(pending k).toUserId] (pending k).fromUserId

theorem Busy.begin (h : Busy s i k log none .begin) :
    Finishes coll pending k s
      (concluded (tablesOf coll log) (pending k)
        (numbered coll (upserted coll (tablesOf coll log) (pending k)) (pending k))) := by
  have hsame : s.commitTxn i (some k) = s := by
    unfold State.commitTxn State.txns
    rw [h.txn]
  have hstep := h.exec coll pending
  unfold State.answered at hstep
  simp only [hsame] at hstep
  have hbusy : Busy (s.setConn i (({ s.conns i with txn := some ⟨[], []⟩ } : Conn κ).goto k
      .conversation)) i k log (some ⟨[], []⟩) .conversation := h.setConn rfl h.up h.reusable
  exact .step hstep (hbusy.conversation hnone)

end

/-- `createMessage` on a borrowed connection. -/
theorem Busy.lookup (h : Busy s i k log none .lookup) :
    Finishes coll pending k s (createAlone coll (tablesOf coll log) (pending k)) := by
  have hown : s.own coll i = tablesOf coll log := h.own
  have hstep := h.exec coll pending
  unfold State.answered at hstep
  simp only [hown] at hstep
  cases hread : readMessageByClientId coll (tablesOf coll log) (pending k) with
  | some row =>
    unfold createAlone
    rw [hread] at hstep ⊢
    exact .step hstep (.now (tables_eq h.log) (Function.update_self ..))
  | none =>
    rw [hread] at hstep
    rw [createAlone_of_none coll hread]
    exact .step hstep ((h.goto .begin).begin hread)

omit [Fintype ι] in
/-- A waiting call gets the connection. -/
theorem Idle.busy (h : Idle s i log) (k : κ) (pc : Pc) (call : CallState) :
    Busy ((s.setConn i (({ s.conns i with reusable := true } : Conn κ).goto k pc)).setCall k call)
      i k log none pc := by
  refine ⟨h.log, ?_, ?_, ?_, ?_, ?_⟩
  · simp [State.setCall, State.setConn, Conn.goto]
  · simpa [State.setCall, State.setConn, Conn.goto] using h.txn
  · simpa [State.setCall, State.setConn, Conn.goto] using h.up
  · simp [State.setCall, State.setConn, Conn.goto]
  · exact update_txn h.alone _

theorem Idle.create (h : Idle s i log) (hcall : s.calls k = .toCreate) :
    Finishes coll pending k s (createAlone coll (tablesOf coll log) (pending k)) := by
  refine .step (l := .borrow k i) ?_ (h.busy k .lookup .creating).lookup
  show s.borrow k i = _
  unfold State.borrow
  rw [if_pos ⟨h.up, h.job⟩, hcall]

omit [Fintype ι] in
/-- The connection goes back after the lookup of `findMessageByClientMsgId`. -/
theorem Busy.release (h : Busy s i k log none pc) (call : CallState) :
    Idle ((s.setConn i (s.conns i).release).setCall k call) i log := by
  refine ⟨h.log, ?_, ?_, ?_, ?_⟩
  · simp [State.setCall, State.setConn, Conn.release]
  · simpa [State.setCall, State.setConn, Conn.release] using h.txn
  · simp [State.setCall, State.setConn, Conn.release, h.up, h.reusable]
  · exact update_txn h.alone _

/-- The lookup of the message the cache names. -/
theorem Busy.find {id : Bytes} (h : Busy s i k log none .find) (hcall : s.calls k = .finding id) :
    Finishes coll pending k s (storeAlone coll (tablesOf coll log) (some id) (pending k)) := by
  have hown : s.own coll i = tablesOf coll log := h.own
  have hstep := h.exec coll pending
  unfold State.answered at hstep
  simp only [hown, State.finishFind, hcall] at hstep
  unfold storeAlone
  cases hread : readMessageByClientId coll (tablesOf coll log) (pending k) with
  | none =>
    rw [hread] at hstep
    exact .step hstep ((h.release .toCreate).create (Function.update_self ..))
  | some row =>
    rw [hread] at hstep
    by_cases hid : row.id = id
    · simp only [hid, if_true] at hstep ⊢
      exact .step hstep (.now (tables_eq h.log) (Function.update_self ..))
    · simp only [hid, if_false] at hstep ⊢
      exact .step hstep ((h.release .toCreate).create (Function.update_self ..))

/-- A call that has the database to itself: there is a run in which it ends with
the answer and the tables of `storeAlone`. -/
theorem run_alone (h : Idle s i log) (hcall : s.calls k = .ready) (cached : Option Bytes) :
    Finishes coll pending k s (storeAlone coll (tablesOf coll log) cached (pending k)) := by
  have hidle : ∀ call, Idle (s.setCall k call) i log :=
    fun _ => ⟨h.log, h.job, h.txn, h.up, h.alone⟩
  cases cached with
  | none =>
    have hmiss : (lts coll pending).step s (.cacheLookup k none) =
        some (s.setCall k .toCreate) := by
      simp only [lts, State.step, hcall]
    exact .step hmiss ((hidle .toCreate).create (Function.update_self ..))
  | some id =>
    have hhit : (lts coll pending).step s (.cacheLookup k (some id)) =
        some (s.setCall k (.toFind id)) := by
      simp only [lts, State.step, hcall]
    refine .step hhit (.step (l := .borrow k i) ?_
      (((hidle (.toFind id)).busy k .find (.finding id)).find (Function.update_self ..)))
    show (s.setCall k (.toFind id)).borrow k i = _
    unfold State.borrow
    rw [if_pos ⟨h.up, h.job⟩]
    simp [State.setCall]

/-- A message from user 1 to user 2. -/
def hello : MessageRecord := ⟨[104], [99], [107], 0, 1, 2, [111], .stored, 7, 0, 0⟩

/-- The first call of all: the message is stored as the first of its conversation. -/
theorem run_alone_first :
    Finishes id (fun _ : Unit => hello) () ({ conns := fun _ => {}, calls := fun _ => .ready } :
      State Unit Unit) (storeAlone id {} none hello) ∧
    (storeAlone id {} none hello).2 = .ok { hello with sequence := 1 } true :=
  ⟨run_alone (⟨rfl, rfl, rfl, rfl, fun _ _ => rfl⟩ : Idle _ () []) rfl none, by decide⟩

end

end ChatServer.Service
