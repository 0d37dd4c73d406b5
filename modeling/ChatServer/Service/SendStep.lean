import ChatServer.Service.SendSafety

/-!
# The steps of the message store

One lemma per way a statement ends (`inv_refused`, `inv_answered`), one per
remaining label, and from them that `Inv` is an invariant of every run.
-/

namespace ChatServer.Service

open Base Db

variable {ι κ : Type} [DecidableEq ι] [DecidableEq κ] {coll : Collation}
  {pending : κ → MessageRecord} {s s' : State ι κ} {c : Conn κ} {i : ι} {k : κ} {pc : Pc}

/-! ## Returning to the caller -/

/-- What a result of `createMessage` says about the tables. -/
def ResultOk (coll : Collation) (s : State ι κ) (k : κ) : CreateMessageResult → Prop
  | .ok m created =>
    m.core ∈ (s.tables coll).cores ∧ (created = true → ∃ e ∈ s.log, e.author = some k)
  | .failed _ => s.failed k = true

omit [DecidableEq ι] [DecidableEq κ] in
theorem ResultOk.answer {r : CreateMessageResult} (h : ResultOk coll s k r) :
    AnswerOk coll pending s k (answer (pending k) r) := by
  cases r with
  | failed status => exact h
  | ok m created =>
    by_cases hsame : isSameIdempotentMessage (pending k) m = true
    · rw [Service.answer, if_pos hsame]
      exact ⟨h.1, hsame, h.2⟩
    · rw [Service.answer, if_neg hsame]
      trivial

omit [DecidableEq ι] [DecidableEq κ] in
theorem Inv.free_old (h : Inv coll pending s) (hc : c.txn = (s.conns i).txn ∨ c.txn = none)
    (t : Txn Write Lock) (ht : c.txn = some t) : Free s.txns i t.locks := by
  rcases hc with heq | heq
  · exact h.exclusive.free (heq.symm.trans ht)
  · simp [heq] at ht

theorem Inv.finishCreate (h : Inv coll pending s) (htxn : c.txn = (s.conns i).txn ∨ c.txn = none)
    (hok : ConnOk coll pending (s.tables coll) s.failed c.release)
    {r : CreateMessageResult} (hr : ResultOk coll s k r) :
    Inv coll pending (s.finishCreate pending i c k r) := by
  have hset : Inv coll pending (s.setConn i c.release) := h.setConn (h.free_old htxn) hok
  refine hset.setCall fun a ha => ?_
  obtain rfl := CallState.done.inj ha
  exact hr.answer

theorem Inv.finishFind (h : Inv coll pending s) (htxn : c.txn = (s.conns i).txn ∨ c.txn = none)
    (hok : ConnOk coll pending (s.tables coll) s.failed c.release) {found : Option MessageRecord}
    (hfound : ∀ m, found = some m → m.core ∈ (s.tables coll).cores) :
    Inv coll pending (s.finishFind pending i c k found) := by
  have hset : Inv coll pending (s.setConn i c.release) := h.setConn (h.free_old htxn) hok
  refine hset.setCall fun a ha => ?_
  split at ha
  · rename_i cached m _
    split at ha
    · obtain rfl := CallState.done.inj ha
      exact ResultOk.answer (r := .ok m false) ⟨hfound m rfl, fun hcr => by cases hcr⟩
    · cases ha
  · cases ha

theorem Inv.afterRollback (h : Inv coll pending s)
    (htxn : c.txn = (s.conns i).txn ∨ c.txn = none)
    (hlink : c.link = (s.conns i).link ∨ c.link = .down none)
    (hreuse : c.reusable = true → c.txn = none) {next : AfterRollback}
    (hnext : match next with
      | .fail _ => s.failed k = true
      | .reread => c.link = .up → ∀ t, c.txn = some t → insertedBy t.writes = []) :
    Inv coll pending (s.afterRollback pending i c k next) := by
  cases next with
  | fail status =>
    refine h.finishCreate htxn ((h.conn i).release htxn hlink fun _ hr => hreuse hr) ?_
    exact hnext
  | reread =>
    refine h.setConn (h.free_old htxn) ((h.conn i).goes htxn hlink ?_ ?_ ?_)
    · intro _ hj
      simp [Conn.goto] at hj
    · intro k' pc hl hj
      simp only [Conn.goto, Option.some.injEq, Prod.mk.injEq] at hj
      obtain ⟨-, rfl⟩ := hj
      exact ⟨hreuse, hnext hl⟩
    · intro k' status hj
      simp [Conn.goto] at hj

/-! ## A statement that fails -/

/-- The failed outcomes of a `COMMIT`: a lost connection leaves it on its way. -/
theorem Inv.commit_refused (h : Inv coll pending s) {n : Int} {o : Outcome}
    (hjob : (s.conns i).job = some (k, .commit n)) :
    Inv coll pending (s.refused pending i k (.commit n) o) := by
  have hm := h.markFailed k
  have hk : (s.markFailed k).failed k = true := by simp [State.markFailed]
  have htxn := fault_txn (s.conns i) o
  by_cases hlost : o = .lost ∧ (s.conns i).link = .up
  · obtain ⟨rfl, hup⟩ := hlost
    obtain ⟨t, ht, hclean, hins⟩ := (h.conn i).phase k _ hup hjob
    have hrefused : s.refused pending i k (.commit n) .lost =
        (s.markFailed k).setConn i
          ({ (s.conns i).fault .lost with link := .down (some k) }.goto k
            (.rollback (.fail .queryFailed))) := by
      simp [State.refused, hup]
    rw [hrefused]
    refine hm.setConn (hm.free_old htxn) ⟨(h.conn i).covered, ?_, ?_, ?_, ?_⟩
    · intro hl
      cases hl
    · intro k' pc hl
      cases hl
    · intro k' status hj
      simp only [Conn.goto, Option.some.injEq, Prod.mk.injEq] at hj
      exact hj.1 ▸ hk
    · intro k' t' hl ht'
      obtain rfl : k = k' := by simpa [Conn.goto] using hl
      obtain rfl : t = t' := Option.some.inj (ht.symm.trans ht')
      exact ⟨hclean, n, hins⟩
  · have hrefused : s.refused pending i k (.commit n) o =
        (s.markFailed k).setConn i
          (((s.conns i).fault o).goto k (.rollback (.fail .queryFailed))) := by
      simp only [State.refused, if_neg hlost]
    rw [hrefused]
    exact hm.setConn (hm.free_old htxn) ((hm.conn i).fails htxn (fault_link _ _) hk)

theorem inv_refused (h : Inv coll pending s) {o : Outcome}
    (hjob : (s.conns i).job = some (k, pc)) : Inv coll pending (s.refused pending i k pc o) := by
  have hm := h.markFailed k
  have hk : (s.markFailed k).failed k = true := by simp [State.markFailed]
  have htxn := fault_txn (s.conns i) o
  have hlink := fault_link (s.conns i) o
  have hup : ((s.conns i).fault o).link = .up → (s.conns i).link = .up := by
    intro hl
    rcases hlink with heq | heq
    · exact heq ▸ hl
    · simp [heq] at hl
  have hgone : (s.conns i).txn = none → ((s.conns i).fault o).txn = none := by
    intro hnone
    rcases htxn with heq | heq
    · exact heq.trans hnone
    · exact heq
  cases pc with
  | find =>
    refine hm.finishFind htxn ((hm.conn i).release htxn hlink fun hl _ => ?_) (by simp)
    exact hgone ((h.conn i).phase k _ (hup hl) hjob)
  | lookup | begin =>
    refine hm.finishCreate htxn ((hm.conn i).release htxn hlink fun hl _ => ?_) hk
    exact hgone ((h.conn i).phase k _ (hup hl) hjob)
  | reread =>
    refine hm.finishCreate htxn ((hm.conn i).release htxn hlink fun hl hr => ?_) hk
    exact hgone (((h.conn i).phase k _ (hup hl) hjob).1 (fault_reusable _ _ hr))
  | conversation | member _ _ | insert _ | allocate | select =>
    exact hm.setConn (hm.free_old htxn) ((hm.conn i).fails htxn hlink hk)
  | commit n => exact h.commit_refused hjob
  | rollback next =>
    refine hm.afterRollback (c := { (s.conns i).fault o with reusable := false }) htxn hlink
      (fun hr => by cases hr) ?_
    cases next with
    | fail status => exact hk
    | reread =>
      intro hl t ht
      have hphase := (h.conn i).phase k _ (hup hl) hjob
      rcases htxn with heq | heq
      · exact hphase t (heq.symm.trans ht)
      · simp [heq] at ht

/-! ## A statement that is carried out -/

omit [DecidableEq ι] [DecidableEq κ] in
/-- A transaction that has inserted nothing reads committed messages. -/
theorem read_committed {m row : MessageRecord}
    (hins : ∀ t, (s.conns i).txn = some t → insertedBy t.writes = [])
    (h : readMessageByClientId coll (s.own coll i) m = some row) :
    row.core ∈ (s.tables coll).cores := by
  have hmem : row ∈ (s.own coll i).messages :=
    List.mem_of_mem_filter (List.mem_of_mem_head? h)
  have hcores : (s.own coll i).cores = (s.tables coll).cores := by
    rw [State.own, Tables.cores_applyAll]
    cases ht : s.txns i with
    | none => simp [insertedBy]
    | some t => simp [hins t ht]
  rw [← hcores]
  exact List.mem_map_of_mem hmem

omit [DecidableEq ι] [DecidableEq κ] in
theorem own_eq {t : Txn Write Lock} (ht : (s.conns i).txn = some t) :
    s.own coll i = (store coll).applyAll (s.tables coll) t.writes := by
  simp [State.own, State.txns, ht]

omit [DecidableEq κ] in
/-- A statement of the transaction gets its locks and makes its writes. -/
theorem Inv.granted [Fintype ι] (h : Inv coll pending s) {t : Txn Write Lock} {g : Grant}
    {next : Pc} (hup : c.link = .up) (ht : (s.conns i).txn = some t) (hct : c.txn = some t)
    (hg : ∀ w ∈ g.writes, ∀ lk ∈ w.touches coll, lk ∈ t.locks ++ g.locks)
    (hphase : Phase coll (s.tables coll) (pending k)
      ({ c with txn := some (extend t g) }.goto k next) next)
    (hnext : ∀ status, next ≠ .rollback (.fail status))
    (hstep : s.granted i c k g next = some s') : Inv coll pending s' := by
  unfold State.granted at hstep
  split at hstep
  · rename_i hfree
    obtain rfl := Option.some.inj hstep
    have hexec : s.execute i c k g next =
        s.setConn i ({ c with txn := some (extend t g) }.goto k next) := by
      simp only [State.execute, hct]
      rfl
    rw [hexec]
    refine h.setConn ?_ (.live ?_ hup rfl hphase fun status hst => absurd hst (hnext status))
    · intro t' ht'
      obtain rfl : extend t g = t' := Option.some.inj ht'
      exact (h.exclusive.free ht).append hfree
    · intro t' ht'
      obtain rfl : extend t g = t' := Option.some.inj ht'
      exact covered_extend ((h.conn i).covered t ht) hg
  · cases hstep

omit [DecidableEq κ] in
/-- Moving on to the next statement with the transaction as it is. -/
theorem Inv.goto (h : Inv coll pending s) {next : Pc} (hup : (s.conns i).link = .up)
    (hphase : Phase coll (s.tables coll) (pending k) ((s.conns i).goto k next) next)
    (hblame : ∀ status, next = .rollback (.fail status) → s.failed k = true) :
    Inv coll pending (s.setConn i ((s.conns i).goto k next)) :=
  h.setConn (h.free_old (.inl rfl)) (.live (h.conn i).covered hup rfl hphase hblame)

theorem insertedBy_append (ws vs : List Write) :
    insertedBy (ws ++ vs) = insertedBy ws ++ insertedBy vs := List.filterMap_append

/-- Upserts add no message. -/
theorem insertedBy_upsertConversation (t : Tables) (id key : Bytes) :
    insertedBy (upsertConversation coll t id key).writes = [] := by
  unfold upsertConversation
  split
  · rfl
  · split <;> rfl

theorem insertedBy_upsertMember (t : Tables) (id : Bytes) (user : UserId) :
    insertedBy (upsertMember coll t id user).writes = [] := by
  unfold upsertMember
  split <;> rfl

theorem upsertConversation_touches (t : Tables) (id key : Bytes) :
    ∀ w ∈ (upsertConversation coll t id key).writes, ∀ lk ∈ w.touches coll,
      lk ∈ (upsertConversation coll t id key).locks := by
  unfold upsertConversation
  split
  · simp
  · split
    · simp
    · simp [Write.touches]

theorem upsertMember_touches (t : Tables) (id : Bytes) (user : UserId) :
    ∀ w ∈ (upsertMember coll t id user).writes, ∀ lk ∈ w.touches coll,
      lk ∈ (upsertMember coll t id user).locks := by
  unfold upsertMember
  split <;> simp [Write.touches]

section

variable [Fintype ι] (h : Inv coll pending s) (hup : (s.conns i).link = .up)

include h hup

theorem Inv.lookup_answered (hjob : (s.conns i).job = some (k, .lookup))
    (hstep : s.answered pending coll i k .lookup = some s') : Inv coll pending s' := by
  have hnone : (s.conns i).txn = none := (h.conn i).phase k _ hup hjob
  simp only [State.answered] at hstep
  split at hstep
  · rename_i row hread
    obtain rfl := Option.some.inj hstep
    refine h.finishCreate (.inl rfl)
      ((h.conn i).release (.inl rfl) (.inl rfl) fun _ _ => hnone) ⟨?_, fun hcr => by cases hcr⟩
    exact read_committed (fun t ht => by simp [hnone] at ht) hread
  · obtain rfl := Option.some.inj hstep
    exact h.goto hup hnone (by simp)

theorem Inv.reread_answered (hjob : (s.conns i).job = some (k, .reread))
    (hstep : s.answered pending coll i k .reread = some s') : Inv coll pending s' := by
  obtain ⟨hreuse, hins⟩ := (h.conn i).phase k _ hup hjob
  simp only [State.answered] at hstep
  split at hstep
  · rename_i row hread
    obtain rfl := Option.some.inj hstep
    exact h.finishCreate (.inl rfl) ((h.conn i).release (.inl rfl) (.inl rfl) fun _ => hreuse)
      ⟨read_committed hins hread, fun hcr => by cases hcr⟩
  · obtain rfl := Option.some.inj hstep
    have hm := h.markFailed k
    exact hm.finishCreate (.inl rfl) ((hm.conn i).release (.inl rfl) (.inl rfl) fun _ => hreuse)
      (by simp [ResultOk, State.markFailed])

theorem Inv.begin_answered (hjob : (s.conns i).job = some (k, .begin))
    (hstep : s.answered pending coll i k .begin = some s') : Inv coll pending s' := by
  have hnone : (s.conns i).txn = none := (h.conn i).phase k _ hup hjob
  -- no transaction is open, so `START TRANSACTION` commits nothing
  have hcommit : s.commitTxn i (some k) = s := by
    have htx : s.txns i = none := hnone
    simp [State.commitTxn, htx]
  simp only [State.answered, hcommit, Option.some.injEq] at hstep
  subst hstep
  refine h.setConn ?_ (.live ?_ hup rfl ⟨_, rfl, Clean.begin h.settled, rfl⟩ (by simp))
  · intro t ht j _ u _ lk hlk
    obtain rfl : (⟨[], []⟩ : Txn Write Lock) = t := Option.some.inj ht
    cases hlk
  · intro t ht w hw
    obtain rfl : (⟨[], []⟩ : Txn Write Lock) = t := Option.some.inj ht
    cases hw

theorem Inv.conversation_answered (hjob : (s.conns i).job = some (k, .conversation))
    (hstep : s.answered pending coll i k .conversation = some s') : Inv coll pending s' := by
  obtain ⟨t, ht, hclean, hins⟩ := (h.conn i).phase k _ hup hjob
  simp only [State.answered, own_eq ht] at hstep
  refine h.granted hup ht ht ?_ ?_ (by simp) hstep
  · intro w hw lk hlk
    exact List.mem_append_right _ (upsertConversation_touches _ _ _ w hw lk hlk)
  · refine ⟨_, rfl, hclean.upsertConversation _ _, ?_⟩
    rw [extend, insertedBy_append, hins, insertedBy_upsertConversation, List.append_nil]

theorem Inv.member_answered {user : UserId} {rest : List UserId}
    (hjob : (s.conns i).job = some (k, .member user rest))
    (hstep : s.answered pending coll i k (.member user rest) = some s') : Inv coll pending s' := by
  obtain ⟨t, ht, hclean, hins⟩ := (h.conn i).phase k _ hup hjob
  have hins' : insertedBy (extend t (upsertMember coll
      ((store coll).applyAll (s.tables coll) t.writes) (pending k).conversationId user)).writes =
        [] := by
    rw [extend, insertedBy_append, hins, insertedBy_upsertMember, List.append_nil]
  simp only [State.answered, own_eq ht] at hstep
  refine h.granted hup ht ht ?_ ?_ ?_ hstep
  · intro w hw lk hlk
    exact List.mem_append_right _ (upsertMember_touches _ _ _ w hw lk hlk)
  · cases rest <;> exact ⟨_, rfl, hclean.upsertMember _ _, hins'⟩
  · cases rest <;> simp

theorem Inv.allocate_answered (hjob : (s.conns i).job = some (k, .allocate))
    (hstep : s.answered pending coll i k .allocate = some s') : Inv coll pending s' := by
  obtain ⟨t, ht, hclean, hins⟩ := (h.conn i).phase k _ hup hjob
  simp only [State.answered] at hstep
  split at hstep
  · rename_i row hrow
    rw [own_eq ht] at hrow
    split at hstep
    · obtain ⟨n, hn, hnum⟩ := hclean.allocate hrow
      refine h.granted (c := { s.conns i with lastInsertId := row.lastSeq + 1 }) hup ht ht ?_ ?_
        (by simp) hstep
      · simp [Write.touches]
      · refine ⟨_, n, rfl, ?_, hnum, ?_⟩
        · simp [Conn.goto, hn]
        · rw [extend, insertedBy_append, hins]
          rfl
    · obtain rfl := Option.some.inj hstep
      exact inv_refused h hjob
  · obtain rfl := Option.some.inj hstep
    exact (h.markFailed k).goto hup trivial (by simp [State.markFailed])

theorem Inv.select_answered (hjob : (s.conns i).job = some (k, .select))
    (hstep : s.answered pending coll i k .select = some s') : Inv coll pending s' := by
  obtain ⟨t, n, ht, hlast, hnum, hins⟩ := (h.conn i).phase k _ hup hjob
  simp only [State.answered] at hstep
  split at hstep
  · obtain rfl := Option.some.inj hstep
    exact (h.markFailed k).goto hup trivial (by simp [State.markFailed])
  · obtain rfl := Option.some.inj hstep
    exact h.goto hup ⟨t, n, ht, hlast, hnum, hins⟩ (by simp)

theorem Inv.insert_answered {q : Int} (hjob : (s.conns i).job = some (k, .insert q))
    (hstep : s.answered pending coll i k (.insert q) = some s') : Inv coll pending s' := by
  obtain ⟨t, n, ht, rfl, hnum, hins⟩ := (h.conn i).phase k _ hup hjob
  simp only [State.answered] at hstep
  split at hstep
  · obtain rfl := Option.some.inj hstep
    refine h.goto hup ?_ (by simp)
    intro t' ht'
    obtain rfl : t = t' := Option.some.inj (ht.symm.trans ht')
    exact hins
  · rename_i hdup
    rw [own_eq ht, Bool.not_eq_true] at hdup
    refine h.granted hup ht ht ?_ ?_ (by simp) hstep
    · intro w hw lk hlk
      rw [List.mem_singleton.mp hw] at hlk
      exact List.mem_append_right _ hlk
    · refine ⟨_, rfl, hnum.insert hdup _, ?_⟩
      rw [extend, insertedBy_append, hins]
      rfl

theorem Inv.commit_answered {q : Int} (hjob : (s.conns i).job = some (k, .commit q))
    (hstep : s.answered pending coll i k (.commit q) = some s') : Inv coll pending s' := by
  obtain ⟨t, ht, hclean, hins⟩ := (h.conn i).phase k _ hup hjob
  obtain rfl := Option.some.inj hstep
  have hok : ConnOk coll pending (s.tables coll) s.failed
      ({ s.conns i with txn := none }.release) := .of_none rfl rfl
  have he : CommitOk pending ⟨some k, t.writes⟩ := ⟨q, hins⟩
  have hinv := h.commit ht hclean he rfl hok
  have hstate : (s.commitTxn i (some k)).finishCreate pending i { s.conns i with txn := none } k
      (.ok { pending k with sequence := q } true) =
        ((s.append ⟨some k, t.writes⟩).setConn i ({ s.conns i with txn := none }.release)).setCall
          k (.done (answer (pending k) (.ok { pending k with sequence := q } true))) := by
    have htx : s.txns i = some t := ht
    simp [State.commitTxn, htx, State.finishCreate, State.setConn]
  rw [hstate]
  refine hinv.setCall fun a ha => ?_
  obtain rfl := CallState.done.inj ha
  refine ResultOk.answer ⟨?_, fun _ => ⟨_, List.mem_append_right _ (List.mem_singleton_self _), rfl⟩⟩
  show _ ∈ ((s.append ⟨some k, t.writes⟩).tables coll).cores
  rw [cores_append, hins]
  exact List.mem_append_right _ (List.mem_singleton_self _)

theorem inv_answered (hjob : (s.conns i).job = some (k, pc))
    (hstep : s.answered pending coll i k pc = some s') : Inv coll pending s' := by
  cases pc with
  | find =>
    have hnone : (s.conns i).txn = none := (h.conn i).phase k _ hup hjob
    obtain rfl := Option.some.inj hstep
    refine h.finishFind (.inl rfl)
      ((h.conn i).release (.inl rfl) (.inl rfl) fun _ _ => hnone) fun m hm => ?_
    exact read_committed (fun t ht => by simp [hnone] at ht) hm
  | lookup => exact h.lookup_answered hup hjob hstep
  | begin => exact h.begin_answered hup hjob hstep
  | conversation => exact h.conversation_answered hup hjob hstep
  | member user rest => exact h.member_answered hup hjob hstep
  | allocate => exact h.allocate_answered hup hjob hstep
  | select => exact h.select_answered hup hjob hstep
  | insert q => exact h.insert_answered hup hjob hstep
  | commit q => exact h.commit_answered hup hjob hstep
  | rollback next =>
    obtain rfl := Option.some.inj hstep
    refine h.afterRollback (c := { s.conns i with txn := none }) (.inr rfl) (.inl rfl)
      (fun _ => rfl) ?_
    cases next with
    | fail status => exact (h.conn i).blame k status hjob
    | reread =>
      intro _ t ht
      cases ht
  | reread => exact h.reread_answered hup hjob hstep

end

/-! ## The other labels -/

theorem Inv.exec [Fintype ι] (h : Inv coll pending s) {o : Outcome}
    (hstep : s.exec pending coll i o = some s') : Inv coll pending s' := by
  unfold State.exec at hstep
  split at hstep
  · cases hstep
  · rename_i k pc hjob
    split at hstep
    · cases hstep
    · rename_i hlink
      split at hstep
      · rename_i hdone
        have hup : (s.conns i).link = .up := by
          by_contra hne
          exact hlink ⟨by simp [hdone], hne⟩
        exact inv_answered h hup hjob hstep
      · obtain rfl := Option.some.inj hstep
        exact inv_refused h hjob

theorem Inv.borrow (h : Inv coll pending s) (hstep : s.borrow k i = some s') :
    Inv coll pending s' := by
  simp only [State.borrow] at hstep
  split at hstep
  · rename_i hidle
    have hnone := (h.conn i).idle hidle.1 hidle.2
    have hready : ∀ pc, pc = .find ∨ pc = .lookup → Inv coll pending
        (s.setConn i ({ s.conns i with reusable := true }.goto k pc)) := by
      intro pc hpc
      refine h.setConn (h.free_old (.inl rfl))
        (.live (h.conn i).covered hidle.1 rfl ?_ (by rcases hpc with rfl | rfl <;> simp))
      rcases hpc with rfl | rfl <;> exact hnone
    split at hstep
    · obtain rfl := Option.some.inj hstep
      exact (hready .find (.inl rfl)).setCall (by simp)
    · obtain rfl := Option.some.inj hstep
      exact (hready .lookup (.inr rfl)).setCall (by simp)
    · cases hstep
  · cases hstep

omit [DecidableEq ι] in
theorem Inv.borrowFailed (h : Inv coll pending s) {timeout : Bool}
    (hstep : s.borrowFailed pending k timeout = some s') : Inv coll pending s' := by
  have hm := h.markFailed k
  unfold State.borrowFailed at hstep
  split at hstep
  · obtain rfl := Option.some.inj hstep
    exact hm.setCall (by simp)
  · obtain rfl := Option.some.inj hstep
    refine hm.setCall fun a ha => ?_
    obtain rfl := CallState.done.inj ha
    show (s.markFailed k).failed k = true
    simp [State.markFailed]
  · cases hstep

omit [DecidableEq κ] in
/-- The connection is gone for good; whatever it held is rolled back. -/
theorem Inv.abandon (h : Inv coll pending s) (hdown : (s.conns i).link ≠ .up) :
    Inv coll pending (s.setConn i { s.conns i with txn := none }) :=
  h.setConn (h.free_old (.inr rfl)) ((h.conn i).goes (.inr rfl) (.inl rfl) (fun _ _ => rfl)
    (fun _ _ hl => absurd hl hdown) (h.conn i).blame)

omit [DecidableEq κ] in
theorem Inv.reap (h : Inv coll pending s) {b : Bool} (hstep : s.reap i b = some s') :
    Inv coll pending s' := by
  simp only [State.reap] at hstep
  split at hstep
  · rename_i k t hlink ht
    have hdown : (s.conns i).link ≠ .up := by simp [hlink]
    split at hstep
    · -- the `COMMIT` on its way is carried out after all
      obtain rfl := Option.some.inj hstep
      obtain ⟨hclean, n, hins⟩ := (h.conn i).inFlight k t hlink ht
      have hstate : s.commitTxn i (some k) =
          (s.append ⟨some k, t.writes⟩).setConn i { s.conns i with txn := none } := by
        have htx : s.txns i = some t := ht
        simp [State.commitTxn, htx]
      rw [hstate]
      refine h.commit ht hclean ⟨n, hins⟩ rfl ?_
      exact (h.conn i).goes (.inr rfl) (.inl rfl) (fun _ _ => rfl)
        (fun _ _ hl => absurd hl hdown) (h.conn i).blame
    · obtain rfl := Option.some.inj hstep
      exact h.abandon hdown
  · rename_i t hlink ht
    obtain rfl := Option.some.inj hstep
    exact h.abandon (by simp [hlink])
  · cases hstep

section

variable [Fintype ι]

omit [DecidableEq ι] [DecidableEq κ] in
/-- What is locked is not touched by an unlocked write. -/
theorem State.unlocked.not_touched {w : Write} (h : s.unlocked (w.touches coll) = true)
    {t : Txn Write Lock} (ht : s.txns i = some t) {lk : Lock} (hlk : lk ∈ t.locks) :
    lk ∉ w.touches coll := by
  intro hmem
  have hall := of_decide_eq_true h
  exact hall i t ht lk hmem hlk

omit [DecidableEq ι] [DecidableEq κ] in
theorem Inv.other (h : Inv coll pending s) {w : Write} (hw : s.admits coll w = true) :
    Inv coll pending (s.append ⟨none, [w]⟩) := by
  have hview : ∀ lk, ((s.append ⟨none, [w]⟩).tables coll).view coll lk =
      w.onView coll lk ((s.tables coll).view coll lk) := by
    intro lk
    rw [tables_append]
    exact Tables.view_apply _ w lk
  cases w with
  | insertConversation row =>
    obtain ⟨hzero, hrows, -, hfree⟩ := of_decide_eq_true hw
    refine h.append rfl (fun lk => ?_) fun i t ht lk hlk => ?_
    · rw [hview]
      refine settled_insertConversation h.settled hzero ?_ lk
      simpa [Tables.view, Tables.conversationsWith] using hrows
    · rw [hview]
      exact Write.onView_of_not_touched (State.unlocked.not_touched hfree ht hlk) _
  | insertMember row | setStatus id status d r =>
    refine h.append rfl (fun lk => ?_) fun i t ht lk hlk => ?_
    · rw [hview]
      cases lk <;> exact h.settled _
    · rw [hview]
      cases lk <;> rfl
  | setLastSeq _ _ | insertMessage _ => cases hw

theorem Inv.step (h : Inv coll pending s) {l : Label ι κ}
    (hstep : s.step pending coll l = some s') : Inv coll pending s' := by
  cases l with
  | cacheLookup k cached =>
    simp only [State.step] at hstep
    split at hstep
    · obtain rfl := Option.some.inj hstep
      exact h.setCall (by simp)
    · obtain rfl := Option.some.inj hstep
      exact h.setCall (by simp)
    · cases hstep
  | borrow k i => exact h.borrow hstep
  | borrowFailed k timeout => exact h.borrowFailed hstep
  | exec i o => exact h.exec hstep
  | drop i =>
    simp only [State.step] at hstep
    split at hstep
    · obtain rfl := Option.some.inj hstep
      exact h.setConn (h.free_old (.inl rfl)) ((h.conn i).goes (.inl rfl) (.inr rfl)
        (fun hl => by cases hl) (fun _ _ hl => by cases hl) (h.conn i).blame)
    · cases hstep
  | reap i b => exact h.reap hstep
  | connect i =>
    simp only [State.step] at hstep
    split at hstep
    · obtain rfl := Option.some.inj hstep
      exact h.setConn (h.free_old (.inr rfl)) (.of_none rfl rfl)
    · cases hstep
  | other w =>
    simp only [State.step] at hstep
    split at hstep
    · rename_i hw
      obtain rfl := Option.some.inj hstep
      exact h.other hw
    · cases hstep

/-- `Inv` holds of every run, from an empty database on. -/
theorem inv_inductive :
    (lts coll pending : Lts (State ι κ) (Label ι κ)).Inductive (fun _ _ => True)
      (Inv coll pending) where
  init s hs := by
    obtain ⟨hlog, hconns, hcalls, -⟩ := hs
    have hempty : s.tables coll = {} := by simp [State.tables, hlog]
    refine ⟨?_, ?_, ?_, ?_, ?_⟩
    · intro i j t u _ hi
      have := (hconns i).1
      simp [State.txns, this] at hi
    · intro lk
      rw [hempty]
      cases lk with
      | conversation k => exact .inl rfl
      | client u k => exact Nat.zero_le 1
      | chatKey _ | member _ _ | message _ | sequence _ _ => trivial
    · exact fun i => .of_none (hconns i).1 (hconns i).2.1
    · intro e he
      simp [hlog] at he
    · intro k a ha
      simp [hcalls k] at ha
  step _ _ _ h _ hstep := h.step hstep

end

end ChatServer.Service
