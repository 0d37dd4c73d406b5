import ChatServer.Service.OfflinePull

/-!
# A cursor walk while messages arrive

A client pages through its offline messages, with the last id of each page as
the next cursor, and may acknowledge what it got; meanwhile other users'
`createMessage` calls commit rows to it. What the walk owes the client is
everything that waited when it began and everything committed since.

* `walk_returns_all` — nothing owed is skipped, if what is committed between
  two pages comes after the last message handed out;
* `walk_skips_message` — a run of three messages of one second that skips one.
-/

namespace ChatServer.Service

open Base Db Codec

/-- `(created_at, id)`, as the client sees it. -/
def offlineKey (coll : Collation) (m : OfflineMessage) : ℤ ×ₗ List ℕ :=
  toLex (m.createdAt, sortKey coll m.messageId)

/-- A walk of one user over the tables. -/
structure PullWalk where
  tables : Tables
  returned : List OfflineMessage := []
  /-- ids of the messages to the user that waited at the start or came since -/
  owed : List Bytes
  /-- what was owed when the query of the last page ran -/
  finished : Option (List Bytes) := none
  deriving DecidableEq

inductive WalkLabel where
  /-- a `createMessage` call commits its row -/
  | create (row : MessageRecord)
  | pull (limit : Int)
  /-- `acknowledgeMessages` marks messages the client got as delivered -/
  | ack (messageIds : List Bytes) (now : Timestamp)
  deriving DecidableEq

namespace PullWalk

variable (coll : Collation) (session : ConnectionSession)

def ids (s : PullWalk) : List Bytes := s.returned.map (·.messageId)

/-- `since_message_id` of the next request. -/
def since (s : PullWalk) : Bytes := (s.returned.getLast?.map (·.messageId)).getD []

/-- The key of the last message handed out. -/
def cursor (s : PullWalk) : Option (ℤ ×ₗ List ℕ) := s.returned.getLast?.map (offlineKey coll)

/-- The client takes up an answer; it is done when there is no more. -/
def receive (s : PullWalk) (r : PullOfflineMessagesResult) : PullWalk :=
  if r.code = .ok then
    { s with
      returned := s.returned ++ r.messages
      finished := if r.hasMore then none else some s.owed }
  else s

/-- The row is committed. -/
def commit (s : PullWalk) (row : MessageRecord) : PullWalk :=
  { s with
    tables := { s.tables with messages := s.tables.messages ++ [row] }
    owed := if row.toUserId = session.userId then s.owed ++ [row.id] else s.owed }

def step (s : PullWalk) : WalkLabel → Option PullWalk
  | .create row =>
    if duplicateEntry coll s.tables row = false ∧ row.status = .stored then
      some (s.commit session row)
    else none
  | .pull limit =>
    if s.finished = none then
      some (s.receive (pullOffline coll s.tables session ⟨limit, [], s.since⟩))
    else none
  | .ack messageIds now =>
    if ∀ id ∈ messageIds, id ∈ s.ids then
      some { s with tables := s.tables.markDelivered coll session.userId messageIds now }
    else none

/-- The walk has not begun: the stored messages to the user are owed. -/
structure Initial (s : PullWalk) : Prop where
  primaryKey : s.tables.PrimaryKey coll
  returned : s.returned = []
  owed : s.owed = (s.tables.inbox session.userId).map (·.id)
  finished : s.finished = none

/-- What is committed to the user between two pages comes after the last message
handed out. -/
def InOrder (s : PullWalk) : WalkLabel → Prop
  | .create row =>
    row.toUserId = session.userId → s.finished = none →
      Keyset.After (s.cursor coll) (row.key coll)
  | _ => True

instance (s : PullWalk) (l : WalkLabel) : Decidable (s.InOrder coll session l) :=
  match l with
  | .create _ => inferInstanceAs (Decidable (_ → _ → _))
  | .pull _ => isTrue trivial
  | .ack _ _ => isTrue trivial

end PullWalk

/-- Walks of the session's user. -/
def walks (coll : Collation) (session : ConnectionSession) : Lts PullWalk WalkLabel where
  Init := PullWalk.Initial coll session
  step s l := s.step coll session l

namespace PullWalk

variable {coll : Collation} {session : ConnectionSession} {s s' : PullWalk}

/-! ## The invariant -/

/-- A row of the table is the one the client got. -/
def Shows (session : ConnectionSession) (o : OfflineMessage) (m : MessageRecord) : Prop :=
  m.id = o.messageId ∧ m.createdAt = o.createdAt ∧ m.toUserId = session.userId

theorem Shows.key {o : OfflineMessage} {m : MessageRecord} (h : Shows session o m) :
    m.key coll = offlineKey coll o := by
  rw [MessageRecord.key, offlineKey, h.1, h.2.1]

/-- The message waits in the inbox, after the cursor. -/
def Waits (coll : Collation) (session : ConnectionSession) (s : PullWalk) (id : Bytes) : Prop :=
  ∃ m ∈ s.tables.inbox session.userId, m.id = id ∧ Keyset.After (s.cursor coll) (m.key coll)

/-- What was handed out is in the table. -/
structure Held (coll : Collation) (session : ConnectionSession) (s : PullWalk) : Prop where
  primaryKey : s.tables.PrimaryKey coll
  shown : ∀ o ∈ s.returned, ∃ m ∈ s.tables.messages, Shows session o m

structure Inv (coll : Collation) (session : ConnectionSession) (s : PullWalk) : Prop where
  held : Held coll session s
  /-- under way, what is owed was handed out or is still to come -/
  waits : s.finished = none → ∀ id ∈ s.owed, id ∈ s.ids ∨ s.Waits coll session id
  /-- the end of the walk had everything that was owed -/
  complete : ∀ due ∈ s.finished, ∀ id ∈ due, id ∈ s.ids

theorem Initial.inv (h : Initial coll session s) : Inv coll session s where
  held := ⟨h.primaryKey, h.returned ▸ List.forall_mem_nil _⟩
  waits _ id hid := by
    rw [h.owed] at hid
    obtain ⟨m, hm, rfl⟩ := List.mem_map.mp hid
    refine .inr ⟨m, hm, rfl, fun c hc => ?_⟩
    rw [cursor, h.returned] at hc
    cases hc
  complete due hdue := by
    rw [h.finished] at hdue
    cases hdue

/-! ## A page -/

/-- An accepted page starts after the last message handed out, or before it. -/
theorem Inv.page (h : Inv coll session s) {limit : Int}
    (hok : (pullOffline coll s.tables session ⟨limit, [], s.since⟩).code = .ok) :
    ∃ after : Option (ℤ ×ₗ List ℕ),
      (∀ k, Keyset.After (s.cursor coll) k → Keyset.After after k) ∧
      (pullOffline coll s.tables session ⟨limit, [], s.since⟩).messages =
        (Keyset.page (MessageRecord.key coll) after limit.toNat
          (s.tables.inbox session.userId)).map ChatService.offlineMessage ∧
      (pullOffline coll s.tables session ⟨limit, [], s.since⟩).hasMore =
        Keyset.more (MessageRecord.key coll) after limit.toNat
          (s.tables.inbox session.userId) := by
  have hselected : ∃ after : Option (ℤ ×ₗ List ℕ),
      (∀ k, Keyset.After (s.cursor coll) k → Keyset.After after k) ∧
      remainingRows coll s.tables session.userId s.since =
        Keyset.remaining (MessageRecord.key coll) after (s.tables.inbox session.userId) := by
    unfold remainingRows
    dsimp only
    split
    · -- an empty cursor selects the whole inbox
      refine ⟨none, fun k _ c hc => ?_, rfl⟩
      cases hc
    · rename_i hsince
      -- otherwise it names the last message handed out, which is in the table
      cases hlast : s.returned.getLast? with
      | none => exact absurd (by rw [since, hlast]; rfl) hsince
      | some last =>
        obtain ⟨m, hm, hshows⟩ := h.held.shown last (List.mem_of_getLast? hlast)
        have hrow : s.tables.cursorRow coll session.userId s.since = some m := by
          rw [show s.since = m.id by rw [since, hlast]; exact hshows.1.symm]
          exact h.held.primaryKey.cursorRow hm hshows.2.2
        refine ⟨some (m.key coll), fun k hk => ?_, by rw [hrow]⟩
        rw [cursor, hlast] at hk
        rwa [hshows.key]
  obtain ⟨after, hafter, hrows⟩ := hselected
  refine ⟨after, hafter, ?_⟩
  rw [pullOffline_eq hok, hrows]
  exact ⟨rfl, rfl⟩

/-- Rows of the inbox are handed out. -/
theorem Held.append (h : Held coll session s) {rows : List MessageRecord}
    (hrows : ∀ m ∈ rows, m ∈ s.tables.inbox session.userId) :
    ∀ o ∈ s.returned ++ rows.map ChatService.offlineMessage,
      ∃ m ∈ s.tables.messages, Shows session o m := by
  intro o ho
  rcases List.mem_append.mp ho with hold | hnew
  · exact h.shown o hold
  · obtain ⟨m, hm, rfl⟩ := List.mem_map.mp hnew
    obtain ⟨hrow, hu, -⟩ := mem_inbox.mp (hrows m hm)
    exact ⟨m, hrow, rfl, rfl, hu⟩

/-- The rows of a page were handed out, and what it leaves comes after it. -/
theorem page_advances (hpk : s.tables.PrimaryKey coll) {after : Option (ℤ ×ₗ List ℕ)}
    {limit : Nat} {page : List MessageRecord}
    (hpage : page = Keyset.page (MessageRecord.key coll) after limit
      (s.tables.inbox session.userId))
    (hafter : ∀ k, Keyset.After (s.cursor coll) k → Keyset.After after k) {m : MessageRecord}
    (hm : m ∈ s.tables.inbox session.userId) (hkey : Keyset.After (s.cursor coll) (m.key coll)) :
    m ∈ page ∨ Keyset.After
      ((s.returned ++ page.map ChatService.offlineMessage).getLast?.map (offlineKey coll))
      (m.key coll) := by
  by_cases hmem : m ∈ page
  · exact .inl hmem
  · refine .inr ?_
    cases hlast : page.getLast? with
    | none =>
      rw [List.getLast?_eq_none_iff.mp hlast, List.map_nil, List.append_nil]
      exact hkey
    | some last =>
      have hend : (s.returned ++ page.map ChatService.offlineMessage).getLast? =
          some (ChatService.offlineMessage last) := by
        rw [List.getLast?_append, List.getLast?_map, hlast]
        rfl
      intro c hc
      rw [hend] at hc
      obtain rfl := Option.some.inj hc
      -- a row that is not after the page's last one would be on the page
      by_contra hnot
      have hcover := Keyset.page_covers (hpk.keyed session.userId) hm (hafter _ hkey)
        (hpage ▸ List.mem_of_getLast? hlast) (not_lt.mp hnot)
      exact hmem (hpage ▸ hcover)

theorem Inv.receive (h : Inv coll session s) (hopen : s.finished = none) (limit : Int) :
    Inv coll session (s.receive (pullOffline coll s.tables session ⟨limit, [], s.since⟩)) := by
  unfold PullWalk.receive
  split
  · rename_i hok
    obtain ⟨after, hafter, hmessages, hmore⟩ := h.page hok
    have hids : ∀ id : Bytes, id ∈ s.ids → id ∈ (s.returned ++ (pullOffline coll s.tables session
        ⟨limit, [], s.since⟩).messages).map (·.messageId) := by
      intro id hid
      rw [List.map_append]
      exact List.mem_append_left _ hid
    have hnew : ∀ m ∈ Keyset.page (MessageRecord.key coll) after limit.toNat
        (s.tables.inbox session.userId), m.id ∈ (s.returned ++ (pullOffline coll s.tables session
        ⟨limit, [], s.since⟩).messages).map (·.messageId) := by
      intro m hm
      rw [List.map_append, hmessages, List.map_map]
      exact List.mem_append_right _ (List.mem_map.mpr ⟨m, hm, rfl⟩)
    refine ⟨⟨h.held.primaryKey, ?_⟩, fun hfin id hid => ?_, fun due hdue id hid => ?_⟩
    · rw [hmessages]
      exact h.held.append fun m hm => (Keyset.mem_of_mem_page hm).1
    · -- what waited is on the page, or comes after it
      rcases h.waits hopen id hid with hgot | ⟨m, hm, rfl, hkey⟩
      · exact .inl (hids id hgot)
      · rcases page_advances h.held.primaryKey rfl hafter hm hkey with hpage | hlater
        · exact .inl (hnew m hpage)
        · refine .inr ⟨m, hm, rfl, ?_⟩
          rw [← hmessages] at hlater
          exact hlater
    · simp only at hdue
      split at hdue
      · cases hdue
      · rename_i hnomore
        obtain rfl := Option.some.inj hdue
        rcases h.waits hopen id hid with hgot | ⟨m, hm, rfl, hkey⟩
        · exact hids id hgot
        · -- there is no more, so it is on the page
          refine hnew m (Keyset.mem_page_of_not_more ?_ hm (hafter _ hkey))
          rw [← hmore]
          exact Bool.eq_false_iff.mpr hnomore
  · exact h

/-! ## Rows that come and rows that are marked -/

theorem Inv.commit (h : Inv coll session s) {row : MessageRecord}
    (hfree : duplicateEntry coll s.tables row = false) (hstatus : row.status = .stored)
    (horder : s.InOrder coll session (.create row)) : Inv coll session (s.commit session row) := by
  have hinbox : ∀ m ∈ s.tables.inbox session.userId,
      m ∈ (s.commit session row).tables.inbox session.userId := by
    intro m hm
    obtain ⟨hrow, hrest⟩ := mem_inbox.mp hm
    exact mem_inbox.mpr ⟨List.mem_append_left _ hrow, hrest⟩
  have hkeep : ∀ id, id ∈ s.ids ∨ s.Waits coll session id →
      id ∈ s.ids ∨ (s.commit session row).Waits coll session id := by
    rintro id (hgot | ⟨m, hm, hid, hkey⟩)
    · exact .inl hgot
    · exact .inr ⟨m, hinbox m hm, hid, hkey⟩
  refine ⟨⟨?_, fun o ho => ?_⟩, fun hopen id hid => ?_, h.complete⟩
  · have hid : ∀ m ∈ s.tables.messages, coll m.id ≠ coll row.id := by
      intro m hm hid
      have hnone := List.any_eq_false.mp hfree m hm
      simp [hid] at hnone
    show ((s.tables.messages ++ [row]).map fun m => coll m.id).Nodup
    rw [List.map_append, List.nodup_append]
    refine ⟨h.held.primaryKey, List.nodup_singleton _, fun a ha b hb => ?_⟩
    obtain ⟨m, hm, rfl⟩ := List.mem_map.mp ha
    rw [List.mem_singleton.mp hb]
    exact hid m hm
  · obtain ⟨m, hm, hshows⟩ := h.held.shown o ho
    exact ⟨m, List.mem_append_left _ hm, hshows⟩
  · -- only a row for the user is owed, and it commits after the cursor
    by_cases hu : row.toUserId = session.userId
    · rw [PullWalk.commit, if_pos hu] at hid
      rcases List.mem_append.mp hid with hold | hself
      · exact hkeep id (h.waits hopen id hold)
      · obtain rfl := List.mem_singleton.mp hself
        refine .inr ⟨row, mem_inbox.mpr ⟨?_, hu, hstatus⟩, rfl, horder hu hopen⟩
        exact List.mem_append_right _ (List.mem_singleton_self row)
    · rw [PullWalk.commit, if_neg hu] at hid
      exact hkeep id (h.waits hopen id hid)

theorem markRowDelivered_frame (coll : Collation) (u : UserId) (messageIds : List Bytes)
    (now : Timestamp) (m : MessageRecord) :
    (markRowDelivered coll u messageIds now m).id = m.id ∧
      (markRowDelivered coll u messageIds now m).createdAt = m.createdAt ∧
      (markRowDelivered coll u messageIds now m).toUserId = m.toUserId := by
  rw [markRowDelivered_eq]
  split <;> exact ⟨rfl, rfl, rfl⟩

/-- Only a row the client got is marked. -/
theorem Held.markRowDelivered_cases (h : Held coll session s) {messageIds : List Bytes}
    (hgot : ∀ id ∈ messageIds, id ∈ s.ids) {m : MessageRecord} (hm : m ∈ s.tables.messages)
    (now : Timestamp) :
    markRowDelivered coll session.userId messageIds now m = m ∨
      ∃ o ∈ s.returned, Shows session o m := by
  rw [markRowDelivered_eq]
  split
  next hmark =>
    obtain ⟨id, hid, hcoll⟩ := List.mem_map.mp hmark.1
    obtain ⟨o, ho, rfl⟩ := List.mem_map.mp (hgot id hid)
    obtain ⟨row, hrow, hshows⟩ := h.shown o ho
    have hsame : m = row := List.inj_on_of_nodup_map h.primaryKey hm hrow
      (hcoll.symm.trans (congrArg coll hshows.1.symm))
    exact .inr ⟨o, ho, hsame ▸ hshows⟩
  next => exact .inl rfl

theorem Held.acknowledge (h : Held coll session s) (messageIds : List Bytes) (now : Timestamp) :
    Held coll session
      { s with tables := s.tables.markDelivered coll session.userId messageIds now } := by
  have hframe := markRowDelivered_frame coll session.userId messageIds now
  refine ⟨?_, fun o ho => ?_⟩
  · show ((s.tables.messages.map _).map fun m : MessageRecord => coll m.id).Nodup
    rw [List.map_map]
    refine (congrArg List.Nodup (List.map_congr_left fun m _ => ?_)).mp h.primaryKey
    exact congrArg coll (hframe m).1.symm
  · obtain ⟨m, hm, hid, hcreated, hu⟩ := h.shown o ho
    obtain ⟨hid', hcreated', hu'⟩ := hframe m
    exact ⟨_, List.mem_map.mpr ⟨m, hm, rfl⟩, hid'.trans hid, hcreated'.trans hcreated,
      hu'.trans hu⟩

theorem Inv.acknowledge (h : Inv coll session s) {messageIds : List Bytes}
    (hgot : ∀ id ∈ messageIds, id ∈ s.ids) (now : Timestamp) :
    Inv coll session
      { s with tables := s.tables.markDelivered coll session.userId messageIds now } := by
  refine ⟨h.held.acknowledge messageIds now, fun hopen id hid => ?_, h.complete⟩
  by_cases hmem : id ∈ s.ids
  · exact .inl hmem
  · obtain ⟨m, hm, rfl, hkey⟩ := (h.waits hopen id hid).resolve_left hmem
    obtain ⟨hrow, hu, hstatus⟩ := mem_inbox.mp hm
    refine .inr ⟨m, mem_inbox.mpr ⟨List.mem_map.mpr ⟨m, hrow, ?_⟩, hu, hstatus⟩, rfl, hkey⟩
    refine (h.held.markRowDelivered_cases hgot hrow now).resolve_right ?_
    rintro ⟨o, ho, hshows⟩
    exact hmem (hshows.1 ▸ List.mem_map_of_mem ho)

theorem inductive_inv : (walks coll session).Inductive (InOrder coll session)
    (Inv coll session) where
  init _ hinit := hinit.inv
  step s l s' h hok hstep := by
    cases l with
    | create row =>
      obtain ⟨⟨hfree, hstatus⟩, ⟨⟩⟩ := Option.ite_none_right_eq_some.mp hstep
      exact h.commit hfree hstatus hok
    | pull limit =>
      obtain ⟨hopen, ⟨⟩⟩ := Option.ite_none_right_eq_some.mp hstep
      exact h.receive hopen limit
    | ack messageIds now =>
      obtain ⟨hgot, ⟨⟩⟩ := Option.ite_none_right_eq_some.mp hstep
      exact h.acknowledge hgot now

end PullWalk

/-- A finished walk handed out every message to its user that waited when it
began or was committed before its last query, provided that each one committed
between two pages came after the last message handed out. -/
theorem walk_returns_all {coll : Collation} {session : ConnectionSession} {s : PullWalk}
    (hs : (walks coll session).Reach (PullWalk.InOrder coll session) s) {due : List Bytes}
    (hdone : s.finished = some due) : ∀ id ∈ due, id ∈ s.returned.map (·.messageId) :=
  (PullWalk.inductive_inv.invariant hs).complete due hdone

/-! ## Runs -/

/-- Message `k` of user 3 to user 2; all of them in one second. -/
def fromCarol (k : Nat) : SendInput :=
  { toBob 100 k with
    session := ⟨true, 3, str "carol", []⟩
    users := by
      show IsInt64 3 ∧ IsInt64 2
      unfold IsInt64
      decide }

/-- Its row. -/
def fromCarolRow (k : Nat) : MessageRecord := insertedRow (fromCarol k).pending (k + 1)

/-- The first two messages are there before the walk begins. -/
def waitingForBob : PullWalk where
  tables := { messages := [fromCarolRow 0, fromCarolRow 1] }
  owed := [(fromCarolRow 0).id, (fromCarolRow 1).id]

theorem waitingForBob_initial : PullWalk.Initial id bob waitingForBob where
  primaryKey := by
    unfold Tables.PrimaryKey
    decide +kernel
  returned := rfl
  owed := by decide +kernel
  finished := rfl

/-- The fourth message comes between two pages, acknowledged one by one; the
walk has it. -/
theorem walk_returns_all_acknowledged :
    ∃ s, (walks id bob).Reach (PullWalk.InOrder id bob) s ∧
      s.finished = some ([0, 1, 3].map fun k => (fromCarolRow k).id) ∧
      ∀ id ∈ [0, 1, 3].map fun k => (fromCarolRow k).id,
        id ∈ s.returned.map (·.messageId) := by
  have hok : (walks id bob).RunOk (PullWalk.InOrder id bob) waitingForBob
      [.pull 1, .ack [(fromCarolRow 1).id] 101, .create (fromCarolRow 3), .pull 1, .pull 1] := by
    decide +kernel
  obtain ⟨s, hs, h⟩ := Lts.exists_reach_of_run (M := walks id bob) (s := waitingForBob)
    (fun s => decide (s.finished = some ([0, 1, 3].map fun k => (fromCarolRow k).id)))
    _ waitingForBob_initial hok (by decide +kernel)
  have hdone := of_decide_eq_true h
  exact ⟨s, hs, hdone, walk_returns_all hs hdone⟩

/-- The counter goes through 1, 2, 3; exclusive or with the sender's id 3 makes
that 2, 1, 0. The first page of one message has the second, which leaves the
third, committed next, before the cursor. -/
theorem walk_skips_message :
    ∃ s, (walks id bob).Reachable s ∧
      s.finished = some ([0, 1, 2].map fun k => (fromCarolRow k).id) ∧
      (fromCarolRow 2).id ∉ s.returned.map (·.messageId) := by
  obtain ⟨s, hs, h⟩ := Lts.exists_reach_of_run (M := walks id bob) (s := waitingForBob)
    (fun s => decide (s.finished = some ([0, 1, 2].map fun k => (fromCarolRow k).id) ∧
      (fromCarolRow 2).id ∉ s.returned.map (·.messageId)))
    [.pull 1, .create (fromCarolRow 2), .pull 1]
    waitingForBob_initial Lts.runOk_true (by decide +kernel)
  have hend := of_decide_eq_true h
  exact ⟨s, hs, hend.1, hend.2⟩

end ChatServer.Service
