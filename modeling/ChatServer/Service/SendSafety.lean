import ChatServer.Service.SendInv

/-!
# Every step keeps the message store settled

`ConnOk` says what a connection may hold at each statement of `createMessage`
(`Phase`), on a connection that went away, and when it is back in the pool;
`Inv` puts the connections, the committed tables, the log and the answers
together. The four lemmas `Inv.setConn`, `Inv.setCall`, `Inv.markFailed` and
`Inv.append` cover every way a step changes the state.
-/

namespace ChatServer.Service

open Base Db

section

variable {κ : Type} (coll : Collation) (pending : κ → MessageRecord)

/-- What the transaction of a live connection has done before statement `pc`. -/
def Phase (T : Tables) (m : MessageRecord) (c : Conn κ) : Pc → Prop
  | .find | .lookup | .begin => c.txn = none
  | .conversation | .member _ _ | .allocate =>
    ∃ t, c.txn = some t ∧ Clean coll T t ∧ insertedBy t.writes = []
  | .select =>
    ∃ t, ∃ n : ℕ, c.txn = some t ∧ c.lastInsertId = n + 1 ∧
      Numbered coll T t m.conversationId n ∧ insertedBy t.writes = []
  | .insert sequence =>
    ∃ t, ∃ n : ℕ, c.txn = some t ∧ sequence = n + 1 ∧
      Numbered coll T t m.conversationId n ∧ insertedBy t.writes = []
  | .commit sequence =>
    ∃ t, c.txn = some t ∧ Clean coll T t ∧ insertedBy t.writes = [insertedRow m sequence]
  | .rollback (.fail _) => True
  | .rollback .reread => ∀ t, c.txn = some t → insertedBy t.writes = []
  | .reread =>
    (c.reusable = true → c.txn = none) ∧ ∀ t, c.txn = some t → insertedBy t.writes = []

/-- A connection in the tables `T`. -/
structure ConnOk (T : Tables) (failed : κ → Bool) (c : Conn κ) : Prop where
  covered : ∀ t, c.txn = some t → (store coll).Covered t
  idle : c.link = .up → c.job = none → c.txn = none
  phase : ∀ k pc, c.link = .up → c.job = some (k, pc) → Phase coll T (pending k) c pc
  /-- a failure exit has a failed statement before it -/
  blame : ∀ k status, c.job = some (k, .rollback (.fail status)) → failed k = true
  /-- a transaction whose `COMMIT` is still on its way -/
  inFlight : ∀ k t, c.link = .down (some k) → c.txn = some t →
    Clean coll T t ∧ ∃ n, insertedBy t.writes = [insertedRow (pending k) n]

/-- The answer of a finished call. -/
def AnswerOk {ι : Type} (s : State ι κ) (k : κ) : SendAnswer → Prop
  | .ok m created =>
    m.core ∈ (s.tables coll).cores ∧ isSameIdempotentMessage (pending k) m = true ∧
      (created = true → ∃ e ∈ s.log, e.author = some k)
  | .conflict => True
  | .storeFailed _ => s.failed k = true

/-- A commit of a call stores its message; other commits store none. -/
def CommitOk (e : Commit κ) : Prop :=
  match e.author with
  | some k => ∃ n, insertedBy e.writes = [insertedRow (pending k) n]
  | none => insertedBy e.writes = []

structure Inv {ι : Type} (s : State ι κ) : Prop where
  exclusive : Exclusive s.txns
  settled : ∀ lk, Settled lk ((s.tables coll).view coll lk)
  conn : ∀ i, ConnOk coll pending (s.tables coll) s.failed (s.conns i)
  log : ∀ e ∈ s.log, CommitOk pending e
  call : ∀ k a, s.calls k = .done a → AnswerOk coll pending s k a

end

variable {ι κ : Type} {coll : Collation} {pending : κ → MessageRecord} {s : State ι κ}
  {T T' : Tables} {failed failed' : κ → Bool} {c : Conn κ}

/-! ## Connections -/

theorem Phase.transfer {m : MessageRecord} {pc : Pc} (h : Phase coll T m c pc)
    (hc : ∀ t, c.txn = some t → (store coll).Covered t)
    (hsame : ∀ t, c.txn = some t → ∀ lk ∈ t.locks, T'.view coll lk = T.view coll lk)
    (hT' : ∀ lk, Settled lk (T'.view coll lk)) : Phase coll T' m c pc := by
  cases pc with
  | find | lookup | begin | reread => exact h
  | rollback next => cases next <;> exact h
  | conversation | member _ _ | allocate | commit _ =>
    obtain ⟨t, ht, hclean, hins⟩ := h
    exact ⟨t, ht, hclean.transfer (hc t ht) (hsame t ht) hT', hins⟩
  | select | insert _ =>
    obtain ⟨t, n, ht, hseq, hnum, hins⟩ := h
    exact ⟨t, n, ht, hseq, hnum.transfer (hc t ht) (hsame t ht) hT', hins⟩

/-- A connection does not notice commits outside its locks. -/
theorem ConnOk.transfer (h : ConnOk coll pending T failed c)
    (hsame : ∀ t, c.txn = some t → ∀ lk ∈ t.locks, T'.view coll lk = T.view coll lk)
    (hT' : ∀ lk, Settled lk (T'.view coll lk)) : ConnOk coll pending T' failed c where
  covered := h.covered
  idle := h.idle
  phase k pc hl hj := (h.phase k pc hl hj).transfer h.covered hsame hT'
  blame := h.blame
  inFlight k t hl ht := by
    obtain ⟨hclean, hins⟩ := h.inFlight k t hl ht
    exact ⟨hclean.transfer (h.covered t ht) (hsame t ht) hT', hins⟩

theorem ConnOk.failed_mono (h : ConnOk coll pending T failed c)
    (hf : ∀ k, failed k = true → failed' k = true) : ConnOk coll pending T failed' c where
  covered := h.covered
  idle := h.idle
  phase := h.phase
  blame k status hj := hf k (h.blame k status hj)
  inFlight := h.inFlight

/-- Without a transaction and without work there is nothing to check. -/
theorem ConnOk.of_none (ht : c.txn = none) (hj : c.job = none) :
    ConnOk coll pending T failed c where
  covered t h := by simp [ht] at h
  idle _ _ := ht
  phase k pc _ h := by simp [hj] at h
  blame k status h := by simp [hj] at h
  inFlight k t _ h := by simp [ht] at h

/-- A connection whose transaction is kept or gone and whose link is kept or lost. -/
theorem ConnOk.goes {c' : Conn κ} (h : ConnOk coll pending T failed c)
    (htxn : c'.txn = c.txn ∨ c'.txn = none) (hlink : c'.link = c.link ∨ c'.link = .down none)
    (hidle : c'.link = .up → c'.job = none → c'.txn = none)
    (hphase : ∀ k pc, c'.link = .up → c'.job = some (k, pc) → Phase coll T (pending k) c' pc)
    (hblame : ∀ k status, c'.job = some (k, .rollback (.fail status)) → failed k = true) :
    ConnOk coll pending T failed c' where
  covered t ht := by
    rcases htxn with heq | heq
    · exact h.covered t (heq ▸ ht)
    · simp [heq] at ht
  idle := hidle
  phase := hphase
  blame := hblame
  inFlight k t hl ht := by
    rcases hlink with hlink | hlink
    · rcases htxn with heq | heq
      · exact h.inFlight k t (hlink ▸ hl) (heq ▸ ht)
      · simp [heq] at ht
    · simp [hlink] at hl

/-- A live connection in the middle of `createMessage`. -/
theorem ConnOk.live {k : κ} {pc : Pc} (hc : ∀ t, c.txn = some t → (store coll).Covered t)
    (hlink : c.link = .up) (hjob : c.job = some (k, pc)) (hphase : Phase coll T (pending k) c pc)
    (hblame : ∀ status, pc = .rollback (.fail status) → failed k = true) :
    ConnOk coll pending T failed c where
  covered := hc
  idle _ hj := by simp [hj] at hjob
  phase k' pc' _ hj := by
    rw [hjob, Option.some.injEq, Prod.mk.injEq] at hj
    obtain ⟨rfl, rfl⟩ := hj
    exact hphase
  blame k' status hj := by
    rw [hjob, Option.some.injEq, Prod.mk.injEq] at hj
    obtain ⟨rfl, hpc⟩ := hj
    exact hblame status hpc
  inFlight k' t hl := by simp [hlink] at hl

theorem fault_txn (c : Conn κ) (o : Outcome) : (c.fault o).txn = c.txn ∨ (c.fault o).txn = none := by
  cases o <;> simp [Conn.fault]

theorem fault_link (c : Conn κ) (o : Outcome) :
    (c.fault o).link = c.link ∨ (c.fault o).link = .down none := by
  cases o with
  | lost => cases hl : c.link <;> simp [Conn.fault, hl]
  | done | error | aborted => exact .inl rfl

theorem fault_reusable (c : Conn κ) (o : Outcome) (h : (c.fault o).reusable = true) :
    c.reusable = true := by
  cases o <;> simp_all [Conn.fault]

theorem release_link (c : Conn κ) : c.release.link = c.link ∨ c.release.link = .down none := by
  cases hl : c.link with
  | down k => exact .inl (by simp [Conn.release, hl])
  | up =>
    by_cases hr : c.reusable = true
    · exact .inl (by simp [Conn.release, hl, hr])
    · exact .inr (by simp [Conn.release, hl, hr])

theorem release_up {c : Conn κ} (h : c.release.link = .up) :
    c.link = .up ∧ c.reusable = true := by
  cases hl : c.link with
  | down k => simp [Conn.release, hl] at h
  | up => simpa [Conn.release, hl] using h

/-- Returning a connection: it goes back to the pool without a transaction. -/
theorem ConnOk.release {c' : Conn κ} (h : ConnOk coll pending T failed c)
    (htxn : c'.txn = c.txn ∨ c'.txn = none) (hlink : c'.link = c.link ∨ c'.link = .down none)
    (hnone : c'.link = .up → c'.reusable = true → c'.txn = none) :
    ConnOk coll pending T failed c'.release := by
  refine h.goes htxn ?_ ?_ ?_ ?_
  · rcases release_link c' with heq | heq
    · rw [heq]
      exact hlink
    · exact .inr heq
  · intro hl _
    obtain ⟨hup, hre⟩ := release_up hl
    exact hnone hup hre
  · intro k pc _ hj
    simp [Conn.release] at hj
  · intro k status hj
    simp [Conn.release] at hj

/-- The failure exit of a statement inside the transaction. -/
theorem ConnOk.fails {k : κ} {status : RepositoryStatus} {c' : Conn κ}
    (h : ConnOk coll pending T failed c) (htxn : c'.txn = c.txn ∨ c'.txn = none)
    (hlink : c'.link = c.link ∨ c'.link = .down none) (hk : failed k = true) :
    ConnOk coll pending T failed (c'.goto k (.rollback (.fail status))) := by
  refine h.goes htxn hlink ?_ ?_ ?_
  · intro _ hj
    simp [Conn.goto] at hj
  · intro k' pc _ hj
    simp only [Conn.goto, Option.some.injEq, Prod.mk.injEq] at hj
    obtain ⟨-, rfl⟩ := hj
    trivial
  · intro k' status' hj
    simp only [Conn.goto, Option.some.injEq, Prod.mk.injEq] at hj
    obtain ⟨rfl, -⟩ := hj
    exact hk

/-! ## Changing the state -/

section

variable [DecidableEq ι] [DecidableEq κ]

omit [DecidableEq κ] in
theorem txns_setConn (s : State ι κ) (i : ι) (c : Conn κ) :
    (s.setConn i c).txns = Function.update s.txns i c.txn := by
  funext j
  by_cases hj : j = i
  · subst hj
    simp [State.txns, State.setConn]
  · simp [State.txns, State.setConn, hj]

omit [DecidableEq κ] in
theorem Inv.setConn (h : Inv coll pending s) {i : ι}
    (hfree : ∀ t, c.txn = some t → Free s.txns i t.locks)
    (hok : ConnOk coll pending (s.tables coll) s.failed c) : Inv coll pending (s.setConn i c) where
  exclusive := by
    rw [txns_setConn]
    cases ht : c.txn with
    | none => exact exclusive_end h.exclusive i
    | some t => exact exclusive_grow h.exclusive (hfree t ht)
  settled := h.settled
  conn j := by
    show ConnOk coll pending (s.tables coll) s.failed (Function.update s.conns i c j)
    by_cases hj : j = i
    · subst hj
      rw [Function.update_self]
      exact hok
    · rw [Function.update_of_ne hj]
      exact h.conn j
  log := h.log
  call := h.call

omit [DecidableEq ι] in
theorem Inv.setCall (h : Inv coll pending s) {k : κ} {c : CallState}
    (hc : ∀ a, c = .done a → AnswerOk coll pending s k a) :
    Inv coll pending (s.setCall k c) where
  exclusive := h.exclusive
  settled := h.settled
  conn := h.conn
  log := h.log
  call k' a ha := by
    change Function.update s.calls k c k' = .done a at ha
    by_cases hk : k' = k
    · subst hk
      rw [Function.update_self] at ha
      exact hc a ha
    · rw [Function.update_of_ne hk] at ha
      exact h.call k' a ha

omit [DecidableEq ι] in
theorem failed_markFailed {k k' : κ} (hk : s.failed k' = true) :
    (s.markFailed k).failed k' = true := by
  by_cases h : k' = k
  · subst h
    simp [State.markFailed]
  · simpa [State.markFailed, h] using hk

omit [DecidableEq ι] in
theorem Inv.markFailed (h : Inv coll pending s) (k : κ) : Inv coll pending (s.markFailed k) where
  exclusive := h.exclusive
  settled := h.settled
  conn i := (h.conn i).failed_mono fun _ hk => failed_markFailed hk
  log := h.log
  call k' a ha := by
    have hold := h.call k' a ha
    cases a with
    | ok m created => exact hold
    | conflict => trivial
    | storeFailed status => exact failed_markFailed hold

end

theorem tables_append (s : State ι κ) (e : Commit κ) :
    (s.append e).tables coll = (store coll).applyAll (s.tables coll) e.writes := by
  simp [State.append, State.tables, Store.applyAll_append]

theorem cores_append (s : State ι κ) (e : Commit κ) :
    ((s.append e).tables coll).cores =
      (s.tables coll).cores ++ (insertedBy e.writes).map (·.core) := by
  rw [tables_append, Tables.cores_applyAll]

/-- A commit that touches nothing another transaction has locked. -/
theorem Inv.append (h : Inv coll pending s) {e : Commit κ} (he : CommitOk pending e)
    (hsettled : ∀ lk, Settled lk (((s.append e).tables coll).view coll lk))
    (hsame : ∀ i t, s.txns i = some t → ∀ lk ∈ t.locks,
      ((s.append e).tables coll).view coll lk = (s.tables coll).view coll lk) :
    Inv coll pending (s.append e) where
  exclusive := h.exclusive
  settled := hsettled
  conn i := (h.conn i).transfer (hsame i) hsettled
  log e' he' := by
    rcases List.mem_append.mp he' with hmem | hmem
    · exact h.log e' hmem
    · rw [List.mem_singleton.mp hmem]
      exact he
  call k a ha := by
    have hold := h.call k a ha
    cases a with
    | ok m created =>
      obtain ⟨hcore, hsame, hlog⟩ := hold
      refine ⟨?_, hsame, fun hcr => ?_⟩
      · rw [cores_append]
        exact List.mem_append_left _ hcore
      · obtain ⟨e', he', hauthor⟩ := hlog hcr
        exact ⟨e', List.mem_append_left _ he', hauthor⟩
    | conflict => trivial
    | storeFailed status => exact hold

/-- The `COMMIT` of connection `i`, which then holds no transaction. -/
theorem Inv.commit [DecidableEq ι] (h : Inv coll pending s) {i : ι}
    {t : Txn Write Lock} {author : Option κ} (ht : s.txns i = some t)
    (hclean : Clean coll (s.tables coll) t) (he : CommitOk pending ⟨author, t.writes⟩)
    (hnone : c.txn = none) (hok : ConnOk coll pending (s.tables coll) s.failed c) :
    Inv coll pending ((s.append ⟨author, t.writes⟩).setConn i c) := by
  have hset : Inv coll pending (s.setConn i c) :=
    h.setConn (fun t' ht' => by simp [hnone] at ht') hok
  refine hset.append (e := ⟨author, t.writes⟩) he ?_ ?_
  · intro lk
    rw [tables_append]
    exact hclean lk
  · intro j u hu lk hlk
    rw [txns_setConn] at hu
    have hj : j ≠ i := by
      rintro rfl
      simp [hnone] at hu
    rw [Function.update_of_ne hj] at hu
    rw [tables_append]
    exact Store.view_stable h.exclusive hj hu ht ((h.conn i).covered t ht) hlk _

end ChatServer.Service
