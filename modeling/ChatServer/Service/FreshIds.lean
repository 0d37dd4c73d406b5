import ChatServer.Common.Identifier
import ChatServer.Common.StdHash
import ChatServer.Service.GroupService
import ChatServer.Service.SendAlone

/-!
# Client message ids that were not used before

Calls of `sendMessage` and turns of the fan-out of `sendGroupMessage`, one after
another, from the empty database. The columns of `messages` are compared without
regard to case, both in the lookup and in the unique key, but the service compares
the stored row byte by byte. `fresh_id_stored_iff` says when a client message id
that the user has not used before is stored, and `fresh_id_refused` is a sequence
in which it is not.
-/

namespace ChatServer.Service

open Base Db Codec

/-- `utf8mb4_unicode_ci` on identifiers: letters are equal regardless of case, and
nothing else is. -/
structure CaseInsensitive (coll : Collation) : Prop where
  eq_iff : ∀ a b, Validator.isValidIdentifier a = true → Validator.isValidIdentifier b = true →
    (coll a = coll b ↔ foldCase a = foldCase b)

/-- The tables, and the client message ids each user has used so far. -/
structure Sends where
  tables : Tables := {}
  used : List (UserId × Bytes) := []
  deriving DecidableEq, Repr

inductive SendLabel where
  /-- the conversation of a new group -/
  | createGroup (groupId : Bytes)
  | send (session : ConnectionSession) (req : SendMessageRequest) (id : Bytes) (now : Timestamp)
      (cached : Option Bytes)
  /-- one recipient of a message to the stored group `groupId` -/
  | deliver (session : ConnectionSession) (req : SendGroupMessageRequest) (groupId : Bytes)
      (toUserId : UserId) (id : Bytes) (now : Timestamp)
  | mark (id : Bytes) (status : MessageStatus) (deliveredAt readAt : Timestamp)

section

variable (coll : Collation)

/-- A generated message id is new. -/
def NewId (t : Tables) (id : Bytes) : Prop := ∀ m ∈ t.messages, coll m.id ≠ coll id

instance (t : Tables) (id : Bytes) : Decidable (NewId coll t id) :=
  inferInstanceAs (Decidable (∀ m ∈ t.messages, coll m.id ≠ coll id))

/-- The call passes the checks of `sendMessage`. -/
def Sends.accepts (s : Sends) (req : SendMessageRequest) (id : Bytes) : Bool :=
  Validator.clientMessageId req.clientMsgId = none ∧ NewId coll s.tables id

/-- A call of `sendMessage`, and what it leaves. -/
def Sends.send (s : Sends) (session : ConnectionSession) (req : SendMessageRequest) (id : Bytes)
    (now : Timestamp) (cached : Option Bytes) : Sends × SendAnswer :=
  let m := ChatService.pendingMessage session req id now
  let (tables, result) := storeAlone coll s.tables cached m
  ({ tables, used := (session.userId, req.clientMsgId) :: s.used }, answer m result)

variable (w : Wiring)

def Sends.step (s : Sends) : SendLabel → Option Sends
  | .createGroup groupId =>
    let row : Conversation := ⟨buildGroupConversationId groupId, .group, none, 0⟩
    if s.tables.conversationsWith coll row.id = [] then
      some { s with tables := s.tables.apply coll (.insertConversation row) }
    else none
  | .send session req id now cached =>
    if s.accepts coll req id then some (s.send coll session req id now cached).1 else none
  | .deliver session req groupId toUserId id now =>
    let conversationId := buildGroupConversationId groupId
    if s.tables.conversationsWith coll conversationId ≠ [] ∧ NewId coll s.tables id ∧
        Validator.clientMessageId req.clientMsgId = none then
      let m := GroupService.pendingMessage w session req conversationId id toUserId now
      some
        { tables := (createAlone coll s.tables m).1
          used := (session.userId, req.clientMsgId) :: s.used }
    else none
  | .mark id status deliveredAt readAt =>
    some { s with tables := s.tables.apply coll (.setStatus id status deliveredAt readAt) }

def sendsLts : Lts Sends SendLabel where
  Init s := s = {}
  step s l := s.step coll w l

end

/-! ## The invariant -/

/-- A row with a key is the conversation of that key. -/
def KeyedRow (r : Conversation) : Prop :=
  ∀ key ∈ r.singleChatKey, r.id = str "conv_" ++ key ∧ Validator.isValidIdentifier key = true

/-- A stored message: its client id is an identifier, and was used by its sender
unless the message belongs to a group. -/
def KnownMessage (used : List (UserId × Bytes)) (m : MessageRecord) : Prop :=
  Validator.isValidIdentifier m.clientMsgId = true ∧
    ((m.fromUserId, m.clientMsgId) ∈ used ∨ ∃ g, m.conversationId = buildGroupConversationId g)

structure Sends.Sound (coll : Collation) (s : Sends) : Prop where
  tidy : Tidy coll s.tables
  keyed : ∀ r ∈ s.tables.conversations, KeyedRow r
  known : ∀ m ∈ s.tables.messages, KnownMessage s.used m

variable {coll : Collation} {t : Tables} {m : MessageRecord} {s : Sends}

/-! ### The upserts -/

theorem grant_upsertMember (coll : Collation) (t : Tables) (id : Bytes) (user : UserId) :
    (grant coll t (upsertMember coll t id user)).conversations = t.conversations ∧
      (grant coll t (upsertMember coll t id user)).messages = t.messages := by
  unfold upsertMember
  split
  · exact ⟨rfl, rfl⟩
  · exact ⟨rfl, rfl⟩

/-- The conversation is there before the upserts, or a row of its key is, or it is
made. -/
theorem upserted_cases (coll : Collation) (t : Tables) (m : MessageRecord) :
    ((upserted coll t m).conversations = t.conversations ∧
        (t.conversationsWith coll m.conversationId ≠ [] ∨ ∃ r ∈ t.conversations,
          r.singleChatKey.map coll = some (coll (singleChatKey m.fromUserId m.toUserId)))) ∨
      t.conversationsWith coll m.conversationId = [] ∧
        (upserted coll t m).conversations = t.conversations ++
          [⟨m.conversationId, .single, some (singleChatKey m.fromUserId m.toUserId), 0⟩] := by
  unfold upserted
  rw [(grant_upsertMember coll _ _ _).1, (grant_upsertMember coll _ _ _).1]
  rcases upsertConversation_cases coll t m.conversationId
    (singleChatKey m.fromUserId m.toUserId) with ⟨h, hthere⟩ | ⟨hnew, h⟩
  · refine .inl ⟨?_, hthere⟩
    rw [grant, h]
    rfl
  · refine .inr ⟨hnew, ?_⟩
    rw [h]
    rfl

theorem upserted_messages (coll : Collation) (t : Tables) (m : MessageRecord) :
    (upserted coll t m).messages = t.messages := by
  unfold upserted
  rw [(grant_upsertMember coll _ _ _).2, (grant_upsertMember coll _ _ _).2]
  rcases upsertConversation_cases coll t m.conversationId
    (singleChatKey m.fromUserId m.toUserId) with ⟨h, -⟩ | ⟨-, h⟩
  · rw [grant, h]
    rfl
  · rw [h]
    rfl

/-- What a message of the conversation of `key` finds, or makes. -/
def Placed (coll : Collation) (t : Tables) (m : MessageRecord) : Prop :=
  t.conversationsWith coll m.conversationId ≠ [] ∨
    m.conversationId = str "conv_" ++ singleChatKey m.fromUserId m.toUserId

theorem isValidIdentifier_singleChatKey (a b : UserId) :
    Validator.isValidIdentifier (singleChatKey a b) = true := by
  have hunderscore : Validator.isValidIdentifier (str "_") = true := by decide
  exact isValidIdentifier_append.mpr ⟨isValidIdentifier_append.mpr
    ⟨isValidIdentifier_intText _, hunderscore⟩, isValidIdentifier_intText _⟩

theorem upserted_keyed (hkeyed : ∀ r ∈ t.conversations, KeyedRow r) (hplaced : Placed coll t m) :
    ∀ r ∈ (upserted coll t m).conversations, KeyedRow r := by
  rcases upserted_cases coll t m with ⟨h, -⟩ | ⟨hnew, h⟩
  · rw [h]
    exact hkeyed
  · rw [h]
    intro r hr
    rcases List.mem_append.mp hr with hr | hr
    · exact hkeyed r hr
    · obtain rfl := List.mem_singleton.mp hr
      intro key hkey
      obtain rfl := Option.some.inj hkey
      exact ⟨hplaced.resolve_left (fun h => h hnew), isValidIdentifier_singleChatKey _ _⟩

/-! ### One call -/

/-- The rows of conversations are replaced one by one when a counter is set. -/
theorem keyed_setLastSeq (hkeyed : ∀ r ∈ t.conversations, KeyedRow r) (id : Bytes) (n : Int) :
    ∀ r ∈ (t.apply coll (.setLastSeq id n)).conversations, KeyedRow r := by
  intro r hr
  obtain ⟨r₀, hr₀, rfl⟩ := List.mem_map.mp hr
  split
  · exact hkeyed r₀ hr₀
  · exact hkeyed r₀ hr₀

/-- What `createMessage` leaves. -/
theorem createAlone_cases (coll : Collation) (t : Tables) (m : MessageRecord) :
    (createAlone coll t m).1 = t ∨ ∃ q,
      (createAlone coll t m).1.conversations =
        ((upserted coll t m).apply coll (.setLastSeq m.conversationId q)).conversations ∧
      (createAlone coll t m).1.messages = t.messages ++ [insertedRow m q] := by
  unfold createAlone
  split
  · exact .inl rfl
  · split
    next t' q hn =>
      obtain ⟨row, -, -, -, rfl⟩ := numbered_eq_ok hn
      refine .inr ⟨q, rfl, ?_⟩
      rw [← upserted_messages coll t m]
      rfl
    next => exact .inl rfl

theorem mem_createAlone {m' : MessageRecord} (h : m' ∈ (createAlone coll t m).1.messages) :
    m' ∈ t.messages ∨ ∃ q, m' = insertedRow m q := by
  rcases createAlone_cases coll t m with heq | ⟨q, -, heq⟩
  · exact .inl (heq ▸ h)
  · rw [heq, List.mem_append, List.mem_singleton] at h
    exact h.imp_right fun h => ⟨q, h⟩

theorem Sends.Sound.mono {used : List (UserId × Bytes)} (hs : s.Sound coll)
    (hused : s.used ⊆ used) : Sends.Sound coll { s with used } :=
  ⟨hs.tidy, hs.keyed, fun m hm => ⟨(hs.known m hm).1, (hs.known m hm).2.imp_left fun h => hused h⟩⟩

theorem Sends.Sound.create {used : List (UserId × Bytes)} (hs : s.Sound coll)
    (hplaced : Placed coll s.tables m) (hused : s.used ⊆ used) (hm : KnownMessage used m) :
    Sends.Sound coll { tables := (createAlone coll s.tables m).1, used } := by
  refine ⟨hs.tidy.createAlone m, ?_, fun m' hm' => ?_⟩
  · rcases createAlone_cases coll s.tables m with h | ⟨q, h, -⟩
    · rw [h]
      exact hs.keyed
    · rw [h]
      exact keyed_setLastSeq (upserted_keyed hs.keyed hplaced) _ _
  · rcases mem_createAlone hm' with hm' | ⟨q, rfl⟩
    · exact (hs.mono hused).known m' hm'
    · exact hm

/-- With the cache, the tables are those of `createMessage` or as they were. -/
theorem storeAlone_cases (coll : Collation) (t : Tables) (cached : Option Bytes)
    (m : MessageRecord) :
    (storeAlone coll t cached m).1 = t ∨
      (storeAlone coll t cached m).1 = (createAlone coll t m).1 := by
  unfold storeAlone
  split
  · split
    · exact .inl rfl
    · exact .inr rfl
  · exact .inr rfl

theorem conversationId_single (session : ConnectionSession) (req : SendMessageRequest) (id : Bytes)
    (now : Timestamp) :
    (ChatService.pendingMessage session req id now).conversationId =
      str "conv_" ++ singleChatKey session.userId req.toUserId := by
  show buildConversationId session.userId req.toUserId = _
  simp [buildConversationId, singleChatKey, List.append_assoc]

theorem Sends.Sound.send (hs : s.Sound coll) (session : ConnectionSession)
    {req : SendMessageRequest} (id : Bytes) (now : Timestamp) (cached : Option Bytes)
    (hvalid : Validator.clientMessageId req.clientMsgId = none) :
    (s.send coll session req id now cached).1.Sound coll := by
  have hused : s.used ⊆ (session.userId, req.clientMsgId) :: s.used := List.subset_cons_self _ _
  show Sends.Sound coll { tables := (storeAlone coll s.tables cached _).1, used := _ }
  rcases storeAlone_cases coll s.tables cached (ChatService.pendingMessage session req id now)
    with h | h
  · rw [h]
    exact hs.mono hused
  · rw [h]
    exact hs.create (.inr (conversationId_single session req id now)) hused
      ⟨isValidIdentifier_of_accepted hvalid, .inl List.mem_cons_self⟩

theorem isValidIdentifier_recipientId (hash : Bytes → Nat) (g c : Bytes) (u : UserId) :
    Validator.isValidIdentifier (buildRecipientClientMessageId hash g c u) = true := by
  have hgcm : Validator.isValidIdentifier (str "gcm_") = true := by decide
  exact isValidIdentifier_append.mpr ⟨hgcm, isValidIdentifier_of_hexDigits (hexText_digits _)⟩

theorem sound_inductive (coll : Collation) (w : Wiring) :
    (sendsLts coll w).Inductive (fun _ _ => True) (Sends.Sound coll) where
  init s hinit := by
    subst hinit
    refine ⟨fun lk => ?_, (fun _ h => nomatch h), (fun _ h => nomatch h)⟩
    cases lk with
    | conversation k => exact .inl rfl
    | client u k => exact Nat.zero_le _
    | _ => trivial
  step s l s' hs _ hstep := by
    cases l with
    | createGroup groupId =>
      -- the row is new, has no key and no message
      obtain ⟨hnew, h⟩ := Option.ite_none_right_eq_some.mp hstep
      obtain rfl := Option.some.inj h
      refine ⟨?_, ?_, hs.known⟩
      · intro lk
        rw [Tables.view_apply]
        refine settled_insertConversation hs.tidy rfl ?_ lk
        show (s.tables.conversationsWith coll _).map (·.lastSeq) = []
        rw [hnew]
        rfl
      · intro r hr
        rcases List.mem_append.mp hr with hr | hr
        · exact hs.keyed r hr
        · obtain rfl := List.mem_singleton.mp hr
          exact fun _ h => nomatch h
    | send session req id now cached =>
      obtain ⟨haccepts, h⟩ := Option.ite_none_right_eq_some.mp hstep
      obtain rfl := Option.some.inj h
      exact hs.send session id now cached (of_decide_eq_true haccepts).1
    | deliver session req groupId toUserId id now =>
      obtain ⟨⟨hgroup, -, -⟩, h⟩ := Option.ite_none_right_eq_some.mp hstep
      obtain rfl := Option.some.inj h
      exact hs.create (.inl hgroup) (List.subset_cons_self _ _)
        ⟨isValidIdentifier_recipientId _ _ _ _, .inr ⟨groupId, rfl⟩⟩
    | mark id status deliveredAt readAt =>
      obtain rfl := Option.some.inj hstep
      -- only the delivery marks of a row change
      refine ⟨?_, hs.keyed, ?_⟩
      · intro lk
        rw [Tables.view_setStatus]
        exact hs.tidy lk
      · intro m hm
        obtain ⟨m₀, hm₀, rfl⟩ := List.mem_map.mp hm
        split
        · exact hs.known m₀ hm₀
        · exact hs.known m₀ hm₀

/-! ## A fresh client message id -/

/-- A message of the sender whose client id differs in case at most. -/
def Variant (t : Tables) (m : MessageRecord) : Prop :=
  ∃ m' ∈ t.messages, m'.fromUserId = m.fromUserId ∧ foldCase m'.clientMsgId = foldCase m.clientMsgId

/-- The counter of the conversation can go up. -/
def Room (coll : Collation) (t : Tables) (m : MessageRecord) : Prop :=
  ∀ r ∈ t.conversations, coll r.id = coll m.conversationId → r.lastSeq + 1 < 2 ^ 63

theorem mem_messagesFrom {u : UserId} {id : Bytes} {m' : MessageRecord} :
    m' ∈ t.messagesFrom coll u id ↔
      m' ∈ t.messages ∧ m'.fromUserId = u ∧ coll m'.clientMsgId = coll id := by
  rw [Tables.messagesFrom, List.mem_filter, decide_eq_true_eq]

/-- The lookup finds nothing exactly if there is no variant. -/
theorem read_none_iff (hcoll : CaseInsensitive coll) (hs : s.Sound coll)
    (hm : Validator.isValidIdentifier m.clientMsgId = true) :
    readMessageByClientId coll s.tables m = none ↔ ¬ Variant s.tables m := by
  unfold readMessageByClientId
  rw [List.head?_eq_none_iff, List.eq_nil_iff_forall_not_mem]
  constructor
  · rintro hnone ⟨m', hm', hfrom, hfold⟩
    exact hnone m' (mem_messagesFrom.mpr ⟨hm', hfrom,
      (hcoll.eq_iff _ _ (hs.known m' hm').1 hm).mpr hfold⟩)
  · intro hno m' hm'
    obtain ⟨hm', hfrom, hkey⟩ := mem_messagesFrom.mp hm'
    exact hno ⟨m', hm', hfrom, (hcoll.eq_iff _ _ (hs.known m' hm').1 hm).mp hkey⟩

/-- A conversation has one row at most. -/
theorem Tidy.singleton (h : Tidy coll t) {id : Bytes} (hne : t.conversationsWith coll id ≠ []) :
    ∃ row, t.conversationsWith coll id = [row] := by
  have hview : (t.view coll (.conversation (coll id))).1 =
      (t.conversationsWith coll id).map (·.lastSeq) := rfl
  rcases h (.conversation (coll id)) with hempty | ⟨n, hn, -⟩
  · rw [hempty] at hview
    exact absurd (List.map_eq_nil_iff.mp hview.symm) hne
  · rw [hn] at hview
    obtain ⟨row, hrow, -⟩ := List.map_eq_singleton_iff.mp hview.symm
    exact ⟨row, hrow⟩

/-- After the upsert the conversation is there. -/
theorem upserted_ne_nil (hcoll : CaseInsensitive coll) (hs : s.Sound coll)
    (hplaced : Placed coll s.tables m) :
    (upserted coll s.tables m).conversationsWith coll m.conversationId ≠ [] := by
  unfold Tables.conversationsWith
  rcases upserted_cases coll s.tables m with ⟨h, hthere⟩ | ⟨-, h⟩
  · rw [h]
    rcases hplaced with hplaced | hplaced
    · exact hplaced
    rcases hthere with hthere | ⟨r, hr, hkey⟩
    · exact hthere
    · -- a row with the key is the conversation itself
      obtain ⟨key, hsome, hkey⟩ := Option.map_eq_some_iff.mp hkey
      obtain ⟨hid, hvalid⟩ := hs.keyed r hr key hsome
      have hfold := (hcoll.eq_iff _ _ hvalid (isValidIdentifier_singleChatKey _ _)).mp hkey
      have hconv : Validator.isValidIdentifier (str "conv_") = true := by decide
      have hsame : coll r.id = coll m.conversationId := by
        rw [hid, hplaced]
        refine (hcoll.eq_iff _ _ (isValidIdentifier_append.mpr ⟨hconv, hvalid⟩)
          (isValidIdentifier_append.mpr ⟨hconv, isValidIdentifier_singleChatKey _ _⟩)).mpr ?_
        rw [foldCase_append, foldCase_append, hfold]
      exact List.ne_nil_of_mem (List.mem_filter.mpr ⟨hr, decide_eq_true hsame⟩)
  · rw [h, List.filter_append]
    refine List.append_ne_nil_of_right_ne_nil _ ?_
    simp

/-- A row after the upsert was there before, or is new. -/
theorem mem_upserted {r : Conversation} (h : r ∈ (upserted coll t m).conversations) :
    r ∈ t.conversations ∨ r.lastSeq = 0 := by
  rcases upserted_cases coll t m with ⟨heq, -⟩ | ⟨-, heq⟩
  · exact .inl (heq ▸ h)
  · rw [heq] at h
    rcases List.mem_append.mp h with h | h
    · exact .inl h
    · obtain rfl := List.mem_singleton.mp h
      exact .inr rfl

/-- A row that was there is there after the upsert. -/
theorem subset_upserted (coll : Collation) (t : Tables) (m : MessageRecord) :
    t.conversations ⊆ (upserted coll t m).conversations := by
  rcases upserted_cases coll t m with ⟨heq, -⟩ | ⟨-, heq⟩
  · rw [heq]
    exact List.Subset.refl _
  · rw [heq]
    exact List.subset_append_left _ _

theorem mem_oneTo {n : ℕ} {i : Int} (h : i ∈ oneTo n) : i ≤ n := by
  obtain ⟨j, hj, rfl⟩ := List.mem_map.mp h
  have hlt := List.mem_range.mp hj
  omega

/-- The number given to a message is used by no other of its conversation. -/
theorem no_duplicate (htidy : Tidy coll t) {row : Conversation}
    (hrow : t.conversationsWith coll m.conversationId = [row])
    (hread : t.messagesFrom coll m.fromUserId m.clientMsgId = []) (hid : NewId coll t m.id) :
    duplicateEntry coll (t.apply coll (.setLastSeq m.conversationId (row.lastSeq + 1)))
      (insertedRow m (row.lastSeq + 1)) = false := by
  obtain ⟨n, hlast, hsequences⟩ := htidy.row hrow
  refine List.any_eq_false.mpr fun m' hm' => ?_
  rw [decide_eq_true_eq]
  -- one case for each unique key of `messages`
  rintro (hsame | ⟨hfrom, hclient⟩ | ⟨hconversation, hsequence⟩)
  · exact hid m' hm' hsame
  · have hmem : m' ∈ t.messagesFrom coll m.fromUserId m.clientMsgId :=
      mem_messagesFrom.mpr ⟨hm', hfrom, hclient⟩
    rw [hread] at hmem
    cases hmem
  · have hmem : m' ∈ t.messagesOf coll m.conversationId :=
      List.mem_filter.mpr ⟨hm', decide_eq_true hconversation⟩
    have hle := mem_oneTo (hsequences ▸ List.mem_map_of_mem hmem)
    have hnumber : m'.sequence = row.lastSeq + 1 := hsequence
    omega

/-- Without a variant the message is stored exactly if the counter can go up. -/
theorem numbered_iff (hcoll : CaseInsensitive coll) (hs : s.Sound coll)
    (hplaced : Placed coll s.tables m)
    (hread : readMessageByClientId coll s.tables m = none) (hid : NewId coll s.tables m.id) :
    (∃ p, numbered coll (upserted coll s.tables m) m = .ok p) ↔ Room coll s.tables m := by
  obtain ⟨row, hrow⟩ := (hs.tidy.upserted m).singleton (upserted_ne_nil hcoll hs hplaced)
  obtain ⟨n, hlast, -⟩ := (hs.tidy.upserted m).row hrow
  have hmessages := upserted_messages coll s.tables m
  have hdup := no_duplicate (hs.tidy.upserted m) hrow
    (by unfold Tables.messagesFrom; rw [hmessages]; exact List.head?_eq_none_iff.mp hread)
    (by unfold NewId; rw [hmessages]; exact hid)
  have hmem : row ∈ (upserted coll s.tables m).conversationsWith coll m.conversationId := by
    rw [hrow]
    exact List.mem_singleton_self _
  obtain ⟨hmem, hkey⟩ := List.mem_filter.mp hmem
  -- the row is there and no key is violated: only the counter can refuse
  unfold numbered
  rw [hrow]
  simp only [hdup, Bool.false_eq_true, if_false]
  constructor
  · rintro ⟨p, hp⟩ r hr hr'
    have hsame : r ∈ (upserted coll s.tables m).conversationsWith coll m.conversationId :=
      List.mem_filter.mpr ⟨subset_upserted coll s.tables m hr, decide_eq_true hr'⟩
    rw [hrow] at hsame
    obtain rfl := List.mem_singleton.mp hsame
    by_contra hmax
    rw [if_pos (.inl hmax)] at hp
    cases hp
  · intro hroom
    have hmax : row.lastSeq + 1 < 2 ^ 63 := by
      rcases mem_upserted hmem with hold | hzero
      · exact hroom row hold (of_decide_eq_true hkey)
      · rw [hzero]
        decide
    rw [if_neg (by omega)]
    exact ⟨_, rfl⟩

/-- A variant is found, with or without the cache. -/
theorem storeAlone_some {row : MessageRecord} (h : readMessageByClientId coll t m = some row)
    (cached : Option Bytes) : storeAlone coll t cached m = (t, .ok row false) := by
  have hcreate := createAlone_of_some coll h
  unfold storeAlone
  rw [h]
  cases cached with
  | none => exact hcreate
  | some id =>
    show (if row.id = id then _ else createAlone coll t m) = _
    split
    · rfl
    · exact hcreate

theorem storeAlone_none (h : readMessageByClientId coll t m = none) (cached : Option Bytes) :
    storeAlone coll t cached m = createAlone coll t m := by
  unfold storeAlone
  rw [h]
  cases cached <;> rfl

theorem group_ne_single (g key : Bytes) : buildGroupConversationId g ≠ str "conv_" ++ key := by
  intro h
  have hhead := congrArg List.head? h
  cases hhead

/-- The answer when a variant is there and the client id was not used before. -/
theorem answer_conflict (hs : s.Sound coll) {row : MessageRecord}
    (hplaced : m.conversationId = str "conv_" ++ singleChatKey m.fromUserId m.toUserId)
    (hfresh : (m.fromUserId, m.clientMsgId) ∉ s.used)
    (hread : readMessageByClientId coll s.tables m = some row) :
    answer m (.ok row false) = .conflict := by
  obtain ⟨hrow, hfrom, -⟩ := mem_messagesFrom.mp (List.mem_of_head? hread)
  refine if_neg fun hsame => ?_
  obtain ⟨hconversation, hclient, -⟩ := of_decide_eq_true hsame
  rcases (hs.known row hrow).2 with hused | ⟨g, hg⟩
  · rw [hfrom, ← hclient] at hused
    exact hfresh hused
  · rw [hg, hplaced] at hconversation
    exact group_ne_single g _ hconversation.symm

/-- The call stores its message as a new one. -/
def Sends.StoresNew (coll : Collation) (s : Sends) (session : ConnectionSession)
    (req : SendMessageRequest) (id : Bytes) (now : Timestamp) (cached : Option Bytes) : Prop :=
  ∃ sequence : Int,
    (s.send coll session req id now cached).2 =
      .ok { ChatService.pendingMessage session req id now with sequence } true ∧
    insertedRow (ChatService.pendingMessage session req id now) sequence ∈
      (s.send coll session req id now cached).1.tables.messages

/-- After any sequence of calls, a call of `sendMessage` with a client message id
that the user has not used before stores its message as a new one exactly if no
message of the user has a client id that differs from it in case at most (and the
counter of the conversation, a `BIGINT`, is not exhausted). If there is such a
message, the call is answered with `IDEMPOTENCY_CONFLICT`. -/
theorem fresh_id_stored_iff (hcoll : CaseInsensitive coll) {w : Wiring}
    (hreach : (sendsLts coll w).Reachable s) {session : ConnectionSession}
    {req : SendMessageRequest} {id : Bytes} (haccepts : s.accepts coll req id = true)
    (hfresh : (session.userId, req.clientMsgId) ∉ s.used) (now : Timestamp)
    (cached : Option Bytes) :
    (s.StoresNew coll session req id now cached ↔
      ¬ Variant s.tables (ChatService.pendingMessage session req id now) ∧
        Room coll s.tables (ChatService.pendingMessage session req id now)) ∧
    (Variant s.tables (ChatService.pendingMessage session req id now) →
      (s.send coll session req id now cached).2 = .conflict) := by
  have hs := (sound_inductive coll w).invariant hreach
  obtain ⟨hvalid, hid⟩ := of_decide_eq_true haccepts
  unfold Sends.StoresNew
  generalize hm : ChatService.pendingMessage session req id now = m
  have hplaced : m.conversationId = str "conv_" ++ singleChatKey m.fromUserId m.toUserId := by
    rw [← hm]
    exact conversationId_single session req id now
  have hsend : s.send coll session req id now cached =
      ({ tables := (storeAlone coll s.tables cached m).1
         used := (session.userId, req.clientMsgId) :: s.used },
        answer m (storeAlone coll s.tables cached m).2) := by
    rw [← hm]
    rfl
  have hread := read_none_iff hcoll hs (m := m)
    (by rw [← hm]; exact isValidIdentifier_of_accepted hvalid)
  rw [hsend]
  cases hrow : readMessageByClientId coll s.tables m with
  | some row =>
    -- the lookup finds a variant, and what it finds is another message
    have hvariant : Variant s.tables m := by
      by_contra hno
      rw [hread.mpr hno] at hrow
      cases hrow
    have hconflict := answer_conflict hs hplaced (by rw [← hm]; exact hfresh) hrow
    rw [storeAlone_some hrow cached]
    refine ⟨iff_of_false ?_ fun h => h.1 hvariant, fun _ => hconflict⟩
    rintro ⟨sequence, hok, -⟩
    have hok : answer m (.ok row false) = .ok { m with sequence } true := hok
    rw [hconflict] at hok
    cases hok
  | none =>
    -- it finds nothing, and the counter decides
    have hno := hread.mp hrow
    have hnumbered := numbered_iff hcoll hs (.inr hplaced) hrow (by rw [← hm]; exact hid)
    rw [storeAlone_none hrow cached]
    refine ⟨?_, fun h => absurd h hno⟩
    rw [and_iff_right hno, ← hnumbered]
    unfold createAlone
    rw [hrow]
    cases hn : numbered coll (upserted coll s.tables m) m with
    | error status =>
      refine iff_of_false ?_ (fun ⟨p, hp⟩ => nomatch hp)
      rintro ⟨sequence, hok, -⟩
      cases hok
    | ok p =>
      obtain ⟨t', q⟩ := p
      obtain ⟨row, -, -, -, rfl⟩ := numbered_eq_ok hn
      refine iff_of_true ⟨q, ?_, ?_⟩ ⟨_, rfl⟩
      · exact if_pos (by simp [isSameIdempotentMessage])
      · exact List.mem_append_right _ (List.mem_singleton_self _)

/-! ## Ids that differ in case -/

theorem foldCase_insensitive : CaseInsensitive foldCase := ⟨fun _ _ _ _ => Iff.rfl⟩

/-- A server with no optional part. -/
def bareWiring : Wiring where
  sessionStore := false
  rateLimiter := false
  dedupCache := false
  remotePushPublisher := false
  friendService := false
  groupService := true
  serverId := str "chat-1"
  registerRateLimit := 0
  registerRateWindowSeconds := 0
  loginRateLimit := 0
  loginRateWindowSeconds := 0
  sendRateLimit := 0
  sendRateWindowSeconds := 0
  pid := 1
  stringHash := stdHash

def aliceSession : ConnectionSession := ⟨true, 1, str "alice", []⟩

/-- Alice has sent a message to user 2 under the client id `Abc`. -/
def afterAbc : Sends :=
  (({} : Sends).send foldCase aliceSession ⟨str "Abc", 2, str "hi"⟩ (str "msg_1") 10 none).1

theorem reachable_afterAbc : (sendsLts foldCase bareWiring).Reachable afterAbc :=
  .step (l := .send aliceSession ⟨str "Abc", 2, str "hi"⟩ (str "msg_1") 10 none) (.init rfl) trivial
    (by decide +kernel)

/-- A message under the client id `abc`, which Alice has not used, is refused. -/
theorem fresh_id_refused :
    (({} : Sends).send foldCase aliceSession ⟨str "Abc", 2, str "hi"⟩ (str "msg_1") 10
        none).2.code = .ok ∧
      (sendsLts foldCase bareWiring).Reachable afterAbc ∧
      afterAbc.accepts foldCase ⟨str "abc", 2, str "there"⟩ (str "msg_2") = true ∧
      (1, str "abc") ∉ afterAbc.used ∧
      (afterAbc.send foldCase aliceSession ⟨str "abc", 2, str "there"⟩ (str "msg_2") 20
        none).2.code = .idempotencyConflict :=
  ⟨by decide +kernel, reachable_afterAbc, by decide +kernel, by decide +kernel, by decide +kernel⟩

/-- The client id `xyz` is stored. -/
theorem fresh_id_stored_xyz :
    afterAbc.StoresNew foldCase aliceSession ⟨str "xyz", 2, str "there"⟩ (str "msg_2") 20 none := by
  have hno : ¬ Variant afterAbc.tables (ChatService.pendingMessage aliceSession
      ⟨str "xyz", 2, str "there"⟩ (str "msg_2") 20) := by
    unfold Variant
    decide +kernel
  have hroom : Room foldCase afterAbc.tables (ChatService.pendingMessage aliceSession
      ⟨str "xyz", 2, str "there"⟩ (str "msg_2") 20) := by
    unfold Room
    decide +kernel
  exact (fresh_id_stored_iff foldCase_insensitive reachable_afterAbc (by decide +kernel)
    (by decide +kernel) 20 none).1.mpr ⟨hno, hroom⟩

end ChatServer.Service
