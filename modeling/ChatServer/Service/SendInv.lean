import ChatServer.Service.SendStore
import Mathlib.Data.Int.Basic

/-!
# The invariant of the message store

What every reachable state keeps, view by view: a conversation has no row and
no message, or one row whose counter `n` goes with messages numbered `1 … n` in
commit order; a client id has at most one message (`Settled`). An open
transaction sees settled views too, except between allocating a number and
inserting its message, when its own conversation is one number ahead
(`Numbered`). Locks keep this true under the commits of others.
-/

namespace ChatServer.Service

open Base Db

/-- The numbers `1 … n`. -/
def oneTo (n : ℕ) : List Int := (List.range n).map fun i : ℕ => (i : Int) + 1

theorem oneTo_succ (n : ℕ) : oneTo (n + 1) = oneTo n ++ [(n : Int) + 1] := by
  simp [oneTo, List.range_succ]

/-- What committed data looks like behind each lock. -/
def Settled : Lock → List Int × List MessageRecord → Prop
  | .conversation _, v =>
    v = ([], []) ∨ ∃ n : ℕ, v.1 = [(n : Int)] ∧ v.2.map (·.sequence) = oneTo n
  | .client _ _, v => v.2.length ≤ 1
  | _, _ => True

section

variable (coll : Collation)

/-- The view of a transaction that has the tables `T` under its own writes. -/
def seen (T : Tables) (t : Txn Write Lock) (lk : Lock) : List Int × List MessageRecord :=
  ((store coll).applyAll T t.writes).view coll lk

/-- Committing the transaction leaves everything settled. -/
def Clean (T : Tables) (t : Txn Write Lock) : Prop := ∀ lk, Settled lk (seen coll T t lk)

/-- The transaction holds number `n + 1` of conversation `id` and has not used it. -/
structure Numbered (T : Tables) (t : Txn Write Lock) (id : Bytes) (n : ℕ) : Prop where
  held : .conversation (coll id) ∈ t.locks
  counter : (seen coll T t (.conversation (coll id))).1 = [(n : Int) + 1]
  used : (seen coll T t (.conversation (coll id))).2.map (·.sequence) = oneTo n
  others : ∀ lk, lk ≠ .conversation (coll id) → Settled lk (seen coll T t lk)

end

variable {coll : Collation} {T T' : Tables} {t : Txn Write Lock}

/-! ## Own writes -/

/-- The transaction after a statement. -/
def extend (t : Txn Write Lock) (g : Grant) : Txn Write Lock :=
  ⟨t.writes ++ g.writes, t.locks ++ g.locks⟩

theorem seen_extend_nil (ks : List Lock) (lk : Lock) :
    seen coll T (extend t ⟨ks, []⟩) lk = seen coll T t lk := by
  simp [seen, extend]

theorem seen_extend (ks : List Lock) (w : Write) (lk : Lock) :
    seen coll T (extend t ⟨ks, [w]⟩) lk = w.onView coll lk (seen coll T t lk) := by
  show ((store coll).applyAll T (t.writes ++ [w])).view coll lk = _
  rw [Store.applyAll_concat]
  exact Tables.view_apply _ w lk

theorem covered_extend {g : Grant} (h : (store coll).Covered t)
    (hg : ∀ w ∈ g.writes, ∀ lk ∈ w.touches coll, lk ∈ t.locks ++ g.locks) :
    (store coll).Covered (extend t g) := by
  intro w hw lk hlk
  rcases List.mem_append.mp hw with hw | hw
  · exact List.mem_append_left _ (h w hw lk hlk)
  · exact hg w hw lk hlk

/-! ## The commits of others -/

/-- A view under lock stays as the transaction knows it; any other is the
committed one. -/
theorem seen_transfer (hc : (store coll).Covered t)
    (hsame : ∀ lk ∈ t.locks, T'.view coll lk = T.view coll lk) (lk : Lock) :
    seen coll T' t lk = seen coll T t lk ∨
      lk ∉ t.locks ∧ seen coll T' t lk = T'.view coll lk := by
  by_cases hlk : lk ∈ t.locks
  · exact .inl ((store coll).view_applyAll_congr t.writes (hsame lk hlk))
  · exact .inr ⟨hlk, hc.view_commit hlk T'⟩

theorem Clean.transfer (h : Clean coll T t) (hc : (store coll).Covered t)
    (hsame : ∀ lk ∈ t.locks, T'.view coll lk = T.view coll lk)
    (hT' : ∀ lk, Settled lk (T'.view coll lk)) : Clean coll T' t := by
  intro lk
  rcases seen_transfer hc hsame lk with heq | ⟨-, heq⟩
  · rw [heq]
    exact h lk
  · rw [heq]
    exact hT' lk

theorem Numbered.transfer {id : Bytes} {n : ℕ} (h : Numbered coll T t id n)
    (hc : (store coll).Covered t) (hsame : ∀ lk ∈ t.locks, T'.view coll lk = T.view coll lk)
    (hT' : ∀ lk, Settled lk (T'.view coll lk)) : Numbered coll T' t id n := by
  have hown : seen coll T' t (.conversation (coll id)) = seen coll T t (.conversation (coll id)) :=
    (store coll).view_applyAll_congr t.writes (hsame _ h.held)
  refine ⟨h.held, hown ▸ h.counter, hown ▸ h.used, fun lk hne => ?_⟩
  rcases seen_transfer hc hsame lk with heq | ⟨-, heq⟩
  · rw [heq]
    exact h.others lk hne
  · rw [heq]
    exact hT' lk

/-! ## The statements of `createMessage` -/

theorem Clean.begin (hT : ∀ lk, Settled lk (T.view coll lk)) : Clean coll T ⟨[], []⟩ := hT

/-- A new conversation starts without messages and with its counter at 0. -/
theorem settled_insertConversation {f : Lock → List Int × List MessageRecord} {row : Conversation}
    (h : ∀ lk, Settled lk (f lk)) (hzero : row.lastSeq = 0)
    (hrows : (f (.conversation (coll row.id))).1 = []) (lk : Lock) :
    Settled lk ((Write.insertConversation row).onView coll lk (f lk)) := by
  by_cases hlk : lk = .conversation (coll row.id)
  · subst hlk
    rcases h (.conversation (coll row.id)) with hempty | ⟨n, hn, -⟩
    · rw [hempty]
      refine .inr ⟨0, ?_, ?_⟩ <;> simp [Write.onView, oneTo, hzero]
    · rw [hn] at hrows
      cases hrows
  · have hsame : (Write.insertConversation row).onView coll lk (f lk) = f lk := by
      cases lk <;> first | rfl | (refine if_neg fun he => hlk ?_; rw [he])
    rw [hsame]
    exact h lk

theorem Clean.upsertConversation (h : Clean coll T t) (id key : Bytes) :
    Clean coll T
      (extend t (Db.upsertConversation coll ((store coll).applyAll T t.writes) id key)) := by
  unfold Db.upsertConversation
  split
  · intro lk
    rw [seen_extend_nil]
    exact h lk
  · rename_i hnone
    split
    · intro lk
      rw [seen_extend_nil]
      exact h lk
    · intro lk
      rw [seen_extend]
      refine settled_insertConversation h rfl ?_ lk
      simpa [seen, Tables.view, Tables.conversationsWith] using hnone

theorem Clean.upsertMember (h : Clean coll T t) (id : Bytes) (user : UserId) :
    Clean coll T (extend t (Db.upsertMember coll ((store coll).applyAll T t.writes) id user)) := by
  intro lk
  unfold Db.upsertMember
  split
  · rw [seen_extend_nil]
    exact h lk
  · rw [seen_extend]
    cases lk <;> exact h _

/-- Allocation: the counter of the row read is the number of messages. -/
theorem Clean.allocate (h : Clean coll T t) {id : Bytes} {row : Conversation}
    (hrow : ((store coll).applyAll T t.writes).conversationsWith coll id = [row]) :
    ∃ n : ℕ, row.lastSeq = n ∧
      Numbered coll T (extend t ⟨[.conversation (coll id)], [.setLastSeq id (row.lastSeq + 1)]⟩)
        id n := by
  have hrows : (seen coll T t (.conversation (coll id))).1 = [row.lastSeq] := by
    show (((store coll).applyAll T t.writes).conversationsWith coll id).map (·.lastSeq) = _
    rw [hrow]
    rfl
  rcases h (.conversation (coll id)) with hempty | ⟨n, hn, hused⟩
  · rw [hempty] at hrows
    cases hrows
  · rw [hn, List.cons.injEq] at hrows
    refine ⟨n, hrows.1.symm, ?_, ?_, ?_, ?_⟩
    · simp [extend]
    · rw [seen_extend]
      simp [Write.onView, hn, hrows.1]
    · rw [seen_extend]
      simpa [Write.onView] using hused
    · intro lk hne
      have hsame : Write.onView coll (.setLastSeq id (row.lastSeq + 1)) lk (seen coll T t lk) =
          seen coll T t lk := by
        cases lk <;> first | rfl | (refine if_neg fun he => hne ?_; rw [he])
      rw [seen_extend, hsame]
      exact h lk

/-- The insert uses the allocated number; a client id already there is refused. -/
theorem Numbered.insert {m : MessageRecord} {n : ℕ} (h : Numbered coll T t m.conversationId n)
    (hdup : duplicateEntry coll ((store coll).applyAll T t.writes) (insertedRow m (n + 1)) = false)
    (ks : List Lock) :
    Clean coll T (extend t ⟨ks, [.insertMessage (insertedRow m (n + 1))]⟩) := by
  intro lk
  rw [seen_extend]
  cases lk with
  | conversation k =>
    by_cases hk : coll m.conversationId = k
    · subst hk
      refine .inr ⟨n + 1, ?_, ?_⟩
      · simp [Write.onView, insertedRow, h.counter]
      · simp [Write.onView, insertedRow, h.used, oneTo_succ, MessageRecord.core]
    · have hne : Lock.conversation k ≠ .conversation (coll m.conversationId) := by
        simpa using fun he => hk he.symm
      simpa [Write.onView, insertedRow, hk] using h.others _ hne
  | client u k =>
    by_cases hk : m.fromUserId = u ∧ coll m.clientMsgId = k
    · obtain ⟨rfl, rfl⟩ := hk
      -- no row of this client id, or the insert had failed
      have hnone : (seen coll T t (.client m.fromUserId (coll m.clientMsgId))).2 = [] := by
        simp only [seen, Tables.view, List.map_eq_nil_iff, List.filter_eq_nil_iff,
          decide_eq_true_eq]
        intro r hr hkey
        have := List.any_eq_false.mp hdup r hr
        simp [insertedRow, hkey.1, hkey.2] at this
      simp [Write.onView, insertedRow, Settled, hnone]
    · simpa [Write.onView, insertedRow, hk] using h.others (.client u k) (by simp)
  | chatKey _ | member _ _ | message _ | sequence _ _ => trivial

end ChatServer.Service
