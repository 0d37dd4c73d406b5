import ChatServer.Service.SendStep

/-!
# What the message store guarantees

* `sequences_gap_free` — the messages of a conversation are numbered
  `1 … last_seq` in the order they were committed;
* `send_idempotent` — a client id stores at most one message, and every call
  that is answered with it names the same one.
-/

namespace ChatServer.Service

open Base Db

variable {ι κ : Type} {coll : Collation} {pending : κ → MessageRecord} {s : State ι κ}

/-- The messages a part of the log commits, in order. -/
def committed (log : List (Commit κ)) : List MessageRecord :=
  log.flatMap fun e => insertedBy e.writes

/-- Every committed message with the call that committed it. -/
def authored (log : List (Commit κ)) : List (Option κ × MessageRecord) :=
  log.flatMap fun e => (insertedBy e.writes).map fun row => (e.author, row.core)

theorem insertedBy_flatMap (log : List (Commit κ)) :
    insertedBy (log.flatMap (·.writes)) = committed log := by
  induction log with
  | nil => rfl
  | cons e log ih =>
    rw [List.flatMap_cons, insertedBy_append, ih]
    rfl

theorem cores_eq_committed (s : State ι κ) :
    (s.tables coll).cores = (committed s.log).map (·.core) := by
  rw [State.tables, Tables.cores_applyAll, insertedBy_flatMap]
  rfl

theorem authored_snd (log : List (Commit κ)) :
    (authored log).map (·.2) = (committed log).map (·.core) := by
  induction log with
  | nil => rfl
  | cons e log ih => simp_all [authored, committed, Function.comp_def]

/-- Two members of a list of at most one element are equal. -/
private theorem eq_of_length_le_one {α : Type} {l : List α} (h : l.length ≤ 1) {a b : α}
    (ha : a ∈ l) (hb : b ∈ l) : a = b := by
  match l with
  | [] => cases ha
  | [c] => rw [List.mem_singleton.mp ha, List.mem_singleton.mp hb]
  | _ :: _ :: _ => simp at h

/-! ## Sequence numbers -/

theorem oneTo_pairwise (n : ℕ) : (oneTo n).Pairwise (· < ·) := by
  rw [oneTo, List.pairwise_map]
  exact List.pairwise_lt_range.imp fun hlt => by omega

/-- The numbers of a conversation's messages, read from the log. -/
theorem Inv.sequences (h : Inv coll pending s) (k : Bytes) :
    ∃ n, (((committed s.log).filter fun m => coll m.conversationId = k).map (·.sequence)) =
      oneTo n := by
  have hview : ((s.tables coll).view coll (.conversation k)).2.map (·.sequence) =
      ((committed s.log).filter fun m => coll m.conversationId = k).map (·.sequence) := by
    rw [Tables.view_messages, cores_eq_committed, List.filter_map, List.map_map]
    rfl
  rcases h.settled (.conversation k) with hempty | ⟨n, -, hn⟩
  · refine ⟨0, ?_⟩
    rw [← hview, hempty]
    rfl
  · exact ⟨n, hview.symm.trans hn⟩

/-- In every reachable state the committed messages of each conversation carry
exactly the numbers `1 … last_seq`, each once, and a message committed later
has the larger number. -/
theorem sequences_gap_free [Fintype ι] [DecidableEq ι] [DecidableEq κ]
    (h : (lts coll pending : Lts (State ι κ) (Label ι κ)).Reachable s) :
    (∀ c ∈ (s.tables coll).conversations, ∃ n : ℕ, c.lastSeq = n ∧
      ((s.tables coll).messagesOf coll c.id).map (·.sequence) = oneTo n) ∧
    (∀ m ∈ (s.tables coll).messages, ∃ c ∈ (s.tables coll).conversations,
      coll c.id = coll m.conversationId) ∧
    ∀ earlier later, s.log = earlier ++ later → ∀ m ∈ committed earlier, ∀ m' ∈ committed later,
      coll m.conversationId = coll m'.conversationId → m.sequence < m'.sequence := by
  have hinv := inv_inductive.invariant h
  refine ⟨?_, ?_, ?_⟩
  · intro c hc
    have hmem : c.lastSeq ∈ ((s.tables coll).view coll (.conversation (coll c.id))).1 :=
      List.mem_map_of_mem (List.mem_filter.mpr ⟨hc, by simp⟩)
    rcases hinv.settled (.conversation (coll c.id)) with hempty | ⟨n, hn, hused⟩
    · rw [hempty] at hmem
      cases hmem
    · rw [hn, List.mem_singleton] at hmem
      refine ⟨n, hmem, ?_⟩
      rw [← hused]
      simp [Tables.messagesOf, Tables.view, Function.comp_def, MessageRecord.core]
  · intro m hm
    have hmem : m.core ∈ ((s.tables coll).view coll (.conversation (coll m.conversationId))).2 :=
      List.mem_map_of_mem (List.mem_filter.mpr ⟨hm, by simp⟩)
    rcases hinv.settled (.conversation (coll m.conversationId)) with hempty | ⟨n, hn, -⟩
    · rw [hempty] at hmem
      cases hmem
    · have hrow : (n : Int) ∈
          ((s.tables coll).view coll (.conversation (coll m.conversationId))).1 := by
        rw [hn]
        exact List.mem_singleton_self _
      obtain ⟨c, hc, -⟩ := List.mem_map.mp hrow
      obtain ⟨hc, hid⟩ := List.mem_filter.mp hc
      exact ⟨c, hc, of_decide_eq_true hid⟩
  · intro earlier later hlog m hm m' hm' hsame
    obtain ⟨n, hn⟩ := hinv.sequences (coll m'.conversationId)
    have hsorted := oneTo_pairwise n
    rw [← hn, hlog, committed, List.flatMap_append, List.filter_append, List.map_append,
      List.pairwise_append] at hsorted
    exact hsorted.2.2 _
      (List.mem_map_of_mem (List.mem_filter.mpr ⟨hm, decide_eq_true hsame⟩)) _
      (List.mem_map_of_mem (List.mem_filter.mpr ⟨hm', by simp⟩))

/-! ## Idempotent sends -/

variable {m m' : MessageRecord} {k : κ}

theorem Inv.core_unique (h : Inv coll pending s) (hm : m ∈ (s.tables coll).cores)
    (hm' : m' ∈ (s.tables coll).cores) (hfrom : m.fromUserId = m'.fromUserId)
    (hclient : coll m.clientMsgId = coll m'.clientMsgId) : m = m' := by
  have hone := h.settled (.client m'.fromUserId (coll m'.clientMsgId))
  rw [Settled, Tables.view_client] at hone
  exact eq_of_length_le_one hone (List.mem_filter.mpr ⟨hm, by simp [hfrom, hclient]⟩)
    (List.mem_filter.mpr ⟨hm', by simp⟩)

/-- Two calls with one client id do not both commit. -/
theorem Inv.author_unique (h : Inv coll pending s) {k' : κ} (hm : (some k, m) ∈ authored s.log)
    (hm' : (some k', m') ∈ authored s.log) (hfrom : m.fromUserId = m'.fromUserId)
    (hclient : coll m.clientMsgId = coll m'.clientMsgId) : k = k' := by
  have hone := h.settled (.client m'.fromUserId (coll m'.clientMsgId))
  rw [Settled, Tables.view_client, cores_eq_committed, ← authored_snd, List.filter_map,
    List.length_map] at hone
  have hpair := eq_of_length_le_one hone (List.mem_filter.mpr ⟨hm, by simp [hfrom, hclient]⟩)
    (List.mem_filter.mpr ⟨hm', by simp⟩)
  simpa using congrArg Prod.fst hpair

/-- A commit of a call put its pending message into the log. -/
theorem Inv.authored_of_commit (h : Inv coll pending s) {e : Commit κ} (he : e ∈ s.log)
    (hauthor : e.author = some k) :
    ∃ n, (some k, (insertedRow (pending k) n).core) ∈ authored s.log := by
  have hok := h.log e he
  rw [CommitOk, hauthor] at hok
  obtain ⟨n, hn⟩ := hok
  refine ⟨n, List.mem_flatMap.mpr ⟨e, he, ?_⟩⟩
  rw [hn, hauthor]
  exact List.mem_singleton_self _

theorem mem_cores_of_authored {a : Option κ} (h : (a, m) ∈ authored s.log) :
    m ∈ (s.tables coll).cores := by
  rw [cores_eq_committed, ← authored_snd]
  exact List.mem_map_of_mem h

theorem same_of_isSame (h : isSameIdempotentMessage m m' = true) :
    m.clientMsgId = m'.clientMsgId ∧ m.fromUserId = m'.fromUserId ∧
      m.toUserId = m'.toUserId ∧ m.content = m'.content := by
  obtain ⟨-, hclient, hfrom, hto, hcontent⟩ := of_decide_eq_true h
  exact ⟨hclient, hfrom, hto, hcontent⟩

/-- A stored row decides what a call with its client id may have done. -/
theorem Inv.conflicting (h : Inv coll pending s) {row : MessageRecord}
    (hrow : row ∈ (s.tables coll).messagesFrom coll (pending k).fromUserId (pending k).clientMsgId)
    (hdiff : row.toUserId ≠ (pending k).toUserId ∨ row.content ≠ (pending k).content) :
    (∀ e ∈ s.log, e.author ≠ some k) ∧
      ∀ a, s.calls k = .done a → a = .conflict ∨
        s.failed k = true ∧ ∃ status, a = .storeFailed status := by
  obtain ⟨hmem, hkey⟩ := List.mem_filter.mp hrow
  obtain ⟨hfrom, hclient⟩ := of_decide_eq_true hkey
  have hcore : row.core ∈ (s.tables coll).cores := List.mem_map_of_mem hmem
  -- whatever is stored under this client id has the recipient and content of `row`
  have hclash : ∀ m, m ∈ (s.tables coll).cores → m.fromUserId = (pending k).fromUserId →
      coll m.clientMsgId = coll (pending k).clientMsgId →
      ¬ (m.toUserId = (pending k).toUserId ∧ m.content = (pending k).content) := by
    intro m hm hmfrom hmclient hsame
    have heq := h.core_unique hm hcore (hmfrom.trans hfrom.symm) (hmclient.trans hclient.symm)
    subst heq
    rcases hdiff with hne | hne
    · exact hne hsame.1
    · exact hne hsame.2
  refine ⟨fun e he hauthor => ?_, fun a ha => ?_⟩
  · obtain ⟨n, hn⟩ := h.authored_of_commit he hauthor
    exact hclash _ (mem_cores_of_authored hn) rfl rfl ⟨rfl, rfl⟩
  · have hanswer := h.call k a ha
    cases a with
    | conflict => exact .inl rfl
    | storeFailed status => exact .inr ⟨hanswer, status, rfl⟩
    | ok m created =>
      obtain ⟨hm, hsame, -⟩ := hanswer
      obtain ⟨hc, hf, ht, hcont⟩ := same_of_isSame hsame
      exact absurd ⟨ht.symm, hcont.symm⟩ (hclash _ hm hf.symm (congrArg coll hc.symm))

/-- Idempotent sends, whatever fails and however the calls interleave: one row
per sender and client id; every call answered `OK` names the same message; at
most one of them created it; and a call that asks for something else than what
is stored has changed nothing and is answered `IDEMPOTENCY_CONFLICT`, unless one
of its own statements failed. -/
theorem send_idempotent [Fintype ι] [DecidableEq ι] [DecidableEq κ]
    (h : (lts coll pending : Lts (State ι κ) (Label ι κ)).Reachable s) :
    (∀ u client, ((s.tables coll).messagesFrom coll u client).length ≤ 1) ∧
    (∀ k k' m m' b b', s.calls k = .done (.ok m b) → s.calls k' = .done (.ok m' b') →
      (pending k).fromUserId = (pending k').fromUserId →
      (pending k).clientMsgId = (pending k').clientMsgId →
      m.id = m'.id ∧ m.conversationId = m'.conversationId ∧ m.sequence = m'.sequence ∧
        (b = true → b' = true → k = k')) ∧
    ∀ k row,
      row ∈ (s.tables coll).messagesFrom coll (pending k).fromUserId (pending k).clientMsgId →
      row.toUserId ≠ (pending k).toUserId ∨ row.content ≠ (pending k).content →
      (∀ e ∈ s.log, e.author ≠ some k) ∧
        ∀ a, s.calls k = .done a →
          a = .conflict ∨ s.failed k = true ∧ ∃ status, a = .storeFailed status := by
  have hinv := inv_inductive.invariant h
  refine ⟨fun u client => ?_, ?_, fun k row => hinv.conflicting⟩
  · have hone := hinv.settled (.client u (coll client))
    rwa [Settled, Tables.view, List.length_map] at hone
  · intro k k' m m' b b' hk hk' hfrom hclient
    obtain ⟨hm, hsame, hcreated⟩ := hinv.call k _ hk
    obtain ⟨hm', hsame', hcreated'⟩ := hinv.call k' _ hk'
    obtain ⟨hc, hf, -, -⟩ := same_of_isSame hsame
    obtain ⟨hc', hf', -, -⟩ := same_of_isSame hsame'
    have heq : m.core = m'.core := hinv.core_unique hm hm'
      (hf.symm.trans (hfrom.trans hf')) (congrArg coll (hc.symm.trans (hclient.trans hc')))
    refine ⟨congrArg (·.id) heq, congrArg (·.conversationId) heq, congrArg (·.sequence) heq,
      fun hb hb' => ?_⟩
    obtain ⟨e, he, hauthor⟩ := hcreated hb
    obtain ⟨e', he', hauthor'⟩ := hcreated' hb'
    obtain ⟨n, hn⟩ := hinv.authored_of_commit he hauthor
    obtain ⟨n', hn'⟩ := hinv.authored_of_commit he' hauthor'
    exact hinv.author_unique hn hn' hfrom (congrArg coll hclient)

/-! ## A run -/

/-- Three sends of one client id: the message, a retry, and another content. -/
def threeSends (k : Fin 3) : MessageRecord where
  id := [k.val.toUInt8]
  conversationId := str "conv_1_2"
  clientMsgId := str "c1"
  fromUserId := 1
  toUserId := 2
  content := if k = 2 then str "bye" else str "hi"
  createdAt := 100

/-- The first send loses its connection with the `COMMIT` on its way, the server
carries it out, and the other two run after that. -/
def lostCommit : List (Label (Fin 2) (Fin 3)) :=
  [.cacheLookup 0 none, .borrow 0 0] ++ List.replicate 8 (.exec 0 .done) ++
    [.exec 0 .lost, .exec 0 .lost, .reap 0 true, .cacheLookup 1 none, .borrow 1 1, .exec 1 .done,
      .cacheLookup 2 none, .borrow 2 1, .exec 1 .done]

theorem lostCommit_reaches :
    ∃ s, (lts id threeSends : Lts (State (Fin 2) (Fin 3)) (Label (Fin 2) (Fin 3))).Reachable s ∧
      s.calls 0 = .done (.storeFailed .queryFailed) ∧
      s.calls 1 = .done (.ok { threeSends 0 with sequence := 1 } false) ∧
      s.calls 2 = .done .conflict ∧
      (s.tables id).conversations = [⟨str "conv_1_2", .single, some (str "1_2"), 1⟩] ∧
      (s.tables id).messages = [{ threeSends 0 with sequence := 1 }] := by
  obtain ⟨s, hs, h⟩ := Lts.exists_reach_of_run
    (M := (lts id threeSends : Lts (State (Fin 2) (Fin 3)) (Label (Fin 2) (Fin 3))))
    (s := { conns := fun _ => {}, calls := fun _ => .ready })
    (fun s => decide (s.calls 0 = .done (.storeFailed .queryFailed) ∧
      s.calls 1 = .done (.ok { threeSends 0 with sequence := 1 } false) ∧
      s.calls 2 = .done .conflict ∧
      (s.tables id).conversations = [⟨str "conv_1_2", .single, some (str "1_2"), 1⟩] ∧
      (s.tables id).messages = [{ threeSends 0 with sequence := 1 }]))
    lostCommit ⟨rfl, fun _ => ⟨rfl, rfl, rfl⟩, fun _ => rfl, fun _ => rfl⟩ Lts.runOk_true
    (by decide +kernel)
  exact ⟨s, hs, of_decide_eq_true h⟩

/-- The retry and the conflicting send of `lostCommit` under the theorem. -/
theorem send_idempotent_retried :
    ∃ s, (lts id threeSends : Lts (State (Fin 2) (Fin 3)) (Label (Fin 2) (Fin 3))).Reachable s ∧
      s.calls 2 = .done .conflict ∧ (∀ e ∈ s.log, e.author ≠ some 2) ∧
      ((s.tables id).messagesFrom id 1 (str "c1")).length ≤ 1 := by
  obtain ⟨s, hs, -, -, h2, -, hmessages⟩ := lostCommit_reaches
  have hall := send_idempotent hs
  refine ⟨s, hs, h2, (hall.2.2 2 { threeSends 0 with sequence := 1 } ?_ ?_).1, hall.1 1 _⟩
  · rw [Tables.messagesFrom, hmessages]
    decide
  · exact .inr (by decide)

/-- The conversation of `lostCommit` under the theorem. -/
theorem sequences_gap_free_retried :
    ∃ s, (lts id threeSends : Lts (State (Fin 2) (Fin 3)) (Label (Fin 2) (Fin 3))).Reachable s ∧
      ((s.tables id).messagesOf id (str "conv_1_2")).map (·.sequence) = [1] ∧
      ∃ n : ℕ, (1 : Int) = n ∧
        ((s.tables id).messagesOf id (str "conv_1_2")).map (·.sequence) = oneTo n := by
  obtain ⟨s, hs, -, -, -, hconv, hmessages⟩ := lostCommit_reaches
  refine ⟨s, hs, ?_, (sequences_gap_free hs).1 ⟨str "conv_1_2", .single, some (str "1_2"), 1⟩ ?_⟩
  · rw [Tables.messagesOf, hmessages]
    decide
  · rw [hconv]
    exact List.mem_singleton_self _

end ChatServer.Service
