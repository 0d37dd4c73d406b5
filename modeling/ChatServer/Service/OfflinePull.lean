import ChatServer.Common.Identifier
import ChatServer.Db.OfflineMessages
import ChatServer.Service.ChatService
import Mathlib.Data.List.TakeWhile

/-!
# Pulling offline messages

`pullOffline` is what `ChatService::pullOfflineMessages` answers when the
session and the tables are as given (`pullOfflineMessages_returns`), `walk` the
pages a client gets by passing the last id of each page as the next cursor. A
walk hands the messages out in the order of `(created_at, id)`.
`walk_in_sequence_iff` says when that is the order of the conversation.
-/

namespace ChatServer.Service

open Base Db Codec

/-! ## One page -/

/-- The session manager knows the session, and the repository reads the tables. -/
def ReadsFrom (coll : Collation) (t : Tables) (session : ConnectionSession) :
    ∀ γ, Call γ → γ → Prop
  | _, .getSession _, r => r = some session
  | _, .listOfflineMessages u limit cursor, r => r = listOfflineMessages coll t u limit cursor
  | _, _, _ => True

/-- The answer to a pull request in given tables. -/
def pullOffline (coll : Collation) (t : Tables) (session : ConnectionSession)
    (req : PullOfflineMessagesRequest) : PullOfflineMessagesResult :=
  if !req.beforeMessageId.isEmpty then
    { code := .invalidParam, message := str "before_message_id is not supported" }
  else if req.limit ≤ 0 ∨ ChatService.maxPullOfflineLimit < req.limit then
    { code := .invalidParam, message := str "limit must be between 1 and 100" }
  else
    match Validator.cursor req.sinceMessageId with
    | some err => { code := .invalidParam, message := str err }
    | none =>
      let list := listOfflineMessages coll t session.userId req.limit req.sinceMessageId
      if list.status ≠ .ok then
        { code := mapRepositoryError list.status, message := str "list offline messages failed" }
      else
        { code := .ok, message := str "Success", hasMore := list.hasMore
          messages := list.messages.map ChatService.offlineMessage }

section

variable {coll : Collation} {t : Tables} {session : ConnectionSession}
  {req : PullOfflineMessagesRequest}

theorem safeLimit_eq {limit : Int} (h : 1 ≤ limit ∧ limit ≤ 100) :
    safeLimit limit = limit.toNat := by
  rw [safeLimit, if_pos (Int.lt_of_lt_of_le Int.zero_lt_one h.1), min_eq_left h.2]

/-- A limit out of range is refused. -/
theorem pullOffline_refused (hbefore : req.beforeMessageId = [])
    (hlimit : ¬ (1 ≤ req.limit ∧ req.limit ≤ 100)) : pullOffline coll t session req =
      { code := .invalidParam, message := str "limit must be between 1 and 100" } := by
  have hrange : req.limit ≤ 0 ∨ ChatService.maxPullOfflineLimit < req.limit := by
    unfold ChatService.maxPullOfflineLimit
    omega
  rw [pullOffline, if_neg (by simp [hbefore]), if_pos hrange]

/-- Otherwise the repository is asked. -/
theorem pullOffline_asks (hbefore : req.beforeMessageId = [])
    (hlimit : 1 ≤ req.limit ∧ req.limit ≤ 100)
    (hcursor : Validator.cursor req.sinceMessageId = none) :
    pullOffline coll t session req =
      let list := listOfflineMessages coll t session.userId req.limit req.sinceMessageId
      if list.status ≠ .ok then
        { code := mapRepositoryError list.status, message := str "list offline messages failed" }
      else
        { code := .ok, message := str "Success", hasMore := list.hasMore
          messages := list.messages.map ChatService.offlineMessage } := by
  have hrange : ¬ (req.limit ≤ 0 ∨ ChatService.maxPullOfflineLimit < req.limit) := by
    unfold ChatService.maxPullOfflineLimit
    omega
  rw [pullOffline, if_neg (by simp [hbefore]), if_neg hrange, hcursor]

/-- The requests that get a page. Each row that is fetched has to fit, also the one
that only shows that there is more. -/
theorem pullOffline_ok_iff : (pullOffline coll t session req).code = .ok ↔
    req.beforeMessageId = [] ∧ (1 ≤ req.limit ∧ req.limit ≤ 100) ∧
      Validator.cursor req.sinceMessageId = none ∧
      ∀ m ∈ (remainingRows coll t session.userId req.sinceMessageId).take (req.limit.toNat + 1),
        fits messageColumns m = true := by
  -- the checks in the order in which the service makes them
  by_cases hbefore : req.beforeMessageId = []
  · by_cases hlimit : 1 ≤ req.limit ∧ req.limit ≤ 100
    · cases hcursor : Validator.cursor req.sinceMessageId with
      | some err =>
        unfold pullOffline
        rw [hcursor]
        split <;> [skip; split] <;> simp
      | none =>
        rw [pullOffline_asks hbefore hlimit hcursor, ← safeLimit_eq hlimit]
        simp only [hbefore, hlimit, true_and]
        constructor
        · intro hok
          refine fits_of_listOfflineMessages ?_
          by_contra hfailed
          rw [if_pos hfailed] at hok
          exact mapRepositoryError_ne_ok _ hok
        · intro hfit
          rw [listOfflineMessages_of_fits hfit]
          rfl
    · rw [pullOffline_refused hbefore hlimit]
      simp [hlimit]
  · rw [pullOffline, if_pos (by simpa using hbefore)]
    simp [hbefore]

theorem pullOffline_eq (h : (pullOffline coll t session req).code = .ok) :
    pullOffline coll t session req =
      { code := .ok, message := str "Success"
        hasMore := req.limit.toNat <
          (remainingRows coll t session.userId req.sinceMessageId).length
        messages := ((remainingRows coll t session.userId req.sinceMessageId).take
          req.limit.toNat).map ChatService.offlineMessage } := by
  obtain ⟨hbefore, hlimit, hcursor, hfit⟩ := pullOffline_ok_iff.mp h
  rw [← safeLimit_eq hlimit] at hfit
  rw [pullOffline_asks hbefore hlimit hcursor, listOfflineMessages_of_fits hfit,
    safeLimit_eq hlimit]
  rfl

/-- The other answers hand out nothing. -/
theorem pullOffline_failed (h : (pullOffline coll t session req).code ≠ .ok) :
    (pullOffline coll t session req).messages = [] := by
  unfold pullOffline at h ⊢
  split
  · rfl
  next hbefore =>
    split
    · rfl
    next hlimit =>
      split
      · rfl
      next hcursor =>
        dsimp only
        split
        · rfl
        next hstatus =>
          rw [if_neg hbefore, if_neg hlimit, hcursor] at h
          exact absurd (if_neg hstatus ▸ rfl) h

end

theorem pullOfflineMessages_returns (coll : Collation) (t : Tables) {session : ConnectionSession}
    (hauth : session.authenticated = true) (conn : ConnId) (req : PullOfflineMessagesRequest) :
    (ChatService.pullOfflineMessages conn req).Returns (ReadsFrom coll t session)
      (· = pullOffline coll t session req) := by
  have hsession : (getAuthenticatedSession conn).Returns (ReadsFrom coll t session)
      (· = some session) := by
    refine .call fun r hr => .pure ?_
    rw [show r = some session from hr, Option.filter_some, if_pos hauth]
  refine .bind hsession fun found hfound => ?_
  subst hfound
  unfold pullOffline
  refine .ite (fun h => .pure (if_pos h).symm) fun h => ?_
  rw [if_neg h]
  refine .ite (fun h => .pure (if_pos h).symm) fun h => ?_
  rw [if_neg h]
  cases Validator.cursor req.sinceMessageId with
  | some err => exact .pure rfl
  | none =>
    refine .call fun list hlist => ?_
    rw [show list = listOfflineMessages coll t session.userId req.limit req.sinceMessageId
      from hlist]
    exact .ite (fun h => .pure (if_pos h).symm) fun h => .pure (if_neg h).symm

/-- The pages of a client that passes the last id of each page as the next
cursor; it gives up when a page is empty or refused. -/
def walk (coll : Collation) (t : Tables) (session : ConnectionSession) :
    List Int → Bytes → List OfflineMessage
  | [], _ => []
  | limit :: limits, since =>
    let page := (pullOffline coll t session ⟨limit, [], since⟩).messages
    page ++
      match page.getLast? with
      | none => []
      | some last => walk coll t session limits last.messageId

/-! ## What `sendMessage` stores -/

/-- What a call of `sendMessage` that comes to storing its message works with: the
session and the request, which has passed the checks, and what it takes from the
clock, the counter and the random generator. -/
structure SendInput where
  session : ConnectionSession
  req : SendMessageRequest
  now : Timestamp
  pid : Nat
  counter : Nat
  random : Nat
  users : IsInt64 session.userId ∧ IsInt64 req.toUserId
  clientMsgId : Validator.clientMessageId req.clientMsgId = none
  content : Validator.messageContent req.content = none

namespace SendInput

def mixed (x : SendInput) : Nat := mixedPart x.now x.pid x.session.userId x.counter

def messageId (x : SendInput) : Bytes :=
  buildMessageId x.now x.pid x.session.userId x.counter x.random

/-- The record passed to `createMessage`. -/
def pending (x : SendInput) : MessageRecord :=
  ChatService.pendingMessage x.session x.req x.messageId x.now

/-- The row is what the call stored, but for the delivery marks. -/
def Stored (x : SendInput) (m : MessageRecord) : Prop :=
  m.core = (insertedRow x.pending m.sequence).core

/-- The order of the query in terms of what the calls worked with: the second,
then what is mixed into the id, then the random part. -/
def Before (x y : SendInput) : Prop :=
  x.now < y.now ∨ x.now = y.now ∧
    (x.mixed < y.mixed ∨ x.mixed = y.mixed ∧ x.random % 2 ^ 64 < y.random % 2 ^ 64)

instance (x y : SendInput) : Decidable (x.Before y) :=
  inferInstanceAs (Decidable (_ ∨ _))

end SendInput

/-- The collation orders message ids as their hexadecimal digits are ordered:
digits before letters, each character on its own. -/
def OrdersHex (coll : Collation) : Prop :=
  ∀ a b : Bytes, HexDigits a → HexDigits b → a.length = b.length →
    (sortKey coll (str "msg_" ++ a) < sortKey coll (str "msg_" ++ b) ↔ codes a < codes b)

/-- The order of the bytes themselves is one. -/
theorem ordersHex_id : OrdersHex id := by
  intro a b _ _ _
  show codes (str "msg_" ++ a) < codes (str "msg_" ++ b) ↔ _
  rw [codes_append, codes_append, append_lt_append_iff rfl]
  simp

theorem mixedPart_lt (now : Timestamp) (pid : Nat) (u : UserId) (counter : Nat) :
    mixedPart now pid u counter < 2 ^ 64 := by
  unfold mixedPart
  refine Nat.xor_lt_two_pow (Nat.xor_lt_two_pow (Nat.xor_lt_two_pow ?_ ?_) ?_) ?_
  · exact Nat.mod_lt _ (by omega)
  · exact Nat.mod_lt _ (by omega)
  · show (u % 2 ^ 64).toNat < 2 ^ 64
    omega
  · exact Nat.mod_lt _ (by omega)

/-- Message ids are ordered as what they are made of. -/
theorem messageId_lt_iff {coll : Collation} (hcoll : OrdersHex coll) (x y : SendInput) :
    sortKey coll x.messageId < sortKey coll y.messageId ↔
      x.mixed < y.mixed ∨ x.mixed = y.mixed ∧ x.random % 2 ^ 64 < y.random % 2 ^ 64 := by
  have hwidth : (2 : ℕ) ^ 64 = 16 ^ 16 := rfl
  have hmixed : ∀ z : SendInput, z.mixed < 16 ^ 16 := fun z => hwidth ▸ mixedPart_lt ..
  have hrandom : ∀ z : SendInput, z.random % 2 ^ 64 < 16 ^ 16 := fun z =>
    hwidth ▸ Nat.mod_lt _ (by omega)
  have hdigits : ∀ z : SendInput,
      HexDigits (hexPad 16 z.mixed ++ hexPad 16 (z.random % 2 ^ 64)) := by
    intro z b hb
    rcases List.mem_append.mp hb with hb | hb
    · exact hexPad_digits _ _ b hb
    · exact hexPad_digits _ _ b hb
  have heq : codes (hexPad 16 x.mixed) = codes (hexPad 16 y.mixed) ↔ x.mixed = y.mixed := by
    constructor
    · intro h
      have htext := List.map_injective_iff.mpr (fun _ _ => UInt8.toNat_inj.mp) h
      exact hexPad_injective (hmixed x) (hmixed y) htext
    · intro h
      rw [h]
  have hid : ∀ z : SendInput, z.messageId =
      str "msg_" ++ (hexPad 16 z.mixed ++ hexPad 16 (z.random % 2 ^ 64)) := fun z =>
    List.append_assoc ..
  -- all ids have one length: the mixed part decides, then the random one
  rw [hid x, hid y, hcoll _ _ (hdigits x) (hdigits y) (by simp), codes_append, codes_append,
    append_lt_append_iff (by simp [codes]), hexPad_lt_iff (hmixed x) (hmixed y), heq,
    hexPad_lt_iff (hrandom x) (hrandom y)]

/-- An id made of a name and hexadecimal digits is accepted. -/
theorem accepted_of_hex {name : Bytes} (hname : Validator.isValidIdentifier name = true)
    (hshort : name.length ≤ 32) (field : String) (x y : Nat) :
    Validator.requiredIdentifier field (name ++ hexPad 16 x ++ hexPad 16 y) = none ∧
      name ++ hexPad 16 x ++ hexPad 16 y ≠ [] := by
  have hlength : (name ++ hexPad 16 x ++ hexPad 16 y).length = name.length + 32 := by
    simp
  have hne : name ++ hexPad 16 x ++ hexPad 16 y ≠ [] := fun h => by simp [h] at hlength
  have hvalid : Validator.isValidIdentifier (name ++ hexPad 16 x ++ hexPad 16 y) = true :=
    isValidIdentifier_append.mpr ⟨isValidIdentifier_append.mpr
      ⟨hname, isValidIdentifier_of_hexDigits (hexPad_digits _ _)⟩,
        isValidIdentifier_of_hexDigits (hexPad_digits _ _)⟩
  refine ⟨?_, hne⟩
  have hempty : ¬ (name ++ hexPad 16 x ++ hexPad 16 y).isEmpty = true := fun h =>
    hne (List.isEmpty_iff.mp h)
  have hfits : ¬ (name ++ hexPad 16 x ++ hexPad 16 y).length > Validator.idMaxLength := by
    show ¬ 64 < _
    omega
  rw [Validator.requiredIdentifier, if_neg hempty, if_neg hfits, hvalid]
  rfl

/-- And as a cursor. -/
theorem cursor_of_hex {name : Bytes} (hname : Validator.isValidIdentifier name = true)
    (hshort : name.length ≤ 32) (x y : Nat) :
    Validator.cursor (name ++ hexPad 16 x ++ hexPad 16 y) = none ∧
      name ++ hexPad 16 x ++ hexPad 16 y ≠ [] := by
  obtain ⟨haccepted, hne⟩ := accepted_of_hex hname hshort "cursor" x y
  refine ⟨?_, hne⟩
  rw [Validator.cursor, if_neg fun h => hne (List.isEmpty_iff.mp h), haccepted]

/-- Every message id is accepted as a cursor. -/
theorem cursor_messageId (x : SendInput) :
    Validator.cursor x.messageId = none ∧ x.messageId ≠ [] :=
  cursor_of_hex (by decide) (by decide) _ _

/-! ## Walks over an unchanged table -/

section

variable {coll : Collation} {t : Tables} {session : ConnectionSession}

/-- The limits up to the first one that is refused. -/
def acceptedLimits (limits : List Int) : List Nat :=
  (limits.takeWhile fun l => decide (0 < l ∧ l ≤ ChatService.maxPullOfflineLimit)).map Int.toNat

theorem acceptedLimits_pos {limits : List Int} : ∀ l ∈ acceptedLimits limits, 0 < l := by
  intro l hl
  obtain ⟨i, hi, rfl⟩ := List.mem_map.mp hl
  have haccepted := List.mem_takeWhile_imp hi
  simp only [decide_eq_true_eq] at haccepted
  omega

/-- The messages a client can name as cursor. -/
def Nameable (m : MessageRecord) : Prop := Validator.cursor m.id = none ∧ m.id ≠ []

/-- And that fit the buffers of the repository. -/
def Readable (m : MessageRecord) : Prop := Nameable m ∧ fits messageColumns m = true

theorem remainingRows_after (hpk : t.PrimaryKey coll) {u : UserId} {m : MessageRecord}
    (hm : m ∈ t.messages) (hu : m.toUserId = u) (hname : Nameable m) :
    remainingRows coll t u m.id =
      Keyset.remaining (MessageRecord.key coll) (some (m.key coll)) (t.inbox u) := by
  rw [remainingRows, if_neg hname.2, hpk.cursorRow hm hu]

theorem pullOffline_accepted {limit : Int} (hlimit : 1 ≤ limit ∧ limit ≤ 100)
    (hrows : ∀ m ∈ t.inbox session.userId, Readable m) {since : Bytes}
    (hcursor : Validator.cursor since = none) :
    (pullOffline coll t session ⟨limit, [], since⟩).code = .ok :=
  pullOffline_ok_iff.mpr ⟨rfl, hlimit, hcursor, fun m hm =>
    (hrows m (mem_remainingRows (List.mem_of_mem_take hm))).2⟩

theorem walk_eq (hpk : t.PrimaryKey coll)
    (hrows : ∀ m ∈ t.inbox session.userId, Readable m) (limits : List Int) {since : Bytes}
    (hcursor : Validator.cursor since = none) {after : Option (ℤ ×ₗ List ℕ)}
    (hafter : remainingRows coll t session.userId since =
      Keyset.remaining (MessageRecord.key coll) after (t.inbox session.userId)) :
    walk coll t session limits since =
      (Keyset.walk (MessageRecord.key coll) (acceptedLimits limits) after
        (t.inbox session.userId)).map ChatService.offlineMessage := by
  induction limits generalizing since after with
  | nil => rfl
  | cons limit limits ih =>
    by_cases haccepted : 0 < limit ∧ limit ≤ ChatService.maxPullOfflineLimit
    · have hlimits : acceptedLimits (limit :: limits) =
          limit.toNat :: acceptedLimits limits := by
        rw [acceptedLimits, List.takeWhile_cons_of_pos (by simpa using haccepted)]
        rfl
      rw [walk, pullOffline_eq (pullOffline_accepted haccepted hrows hcursor), hlimits,
        Keyset.walk, Keyset.page]
      simp only [hafter, List.map_append, List.getLast?_map]
      congr 1
      -- the next cursor is the last row of the page, which is a row of the inbox
      cases hlast : ((Keyset.remaining (MessageRecord.key coll) after
          (t.inbox session.userId)).take limit.toNat).getLast? with
      | none => rfl
      | some last =>
        have hmem := (Keyset.mem_of_mem_page (List.mem_of_getLast? hlast)).1
        obtain ⟨hrow, hu, -⟩ := mem_inbox.mp hmem
        have hname := (hrows _ hmem).1
        exact ih hname.1 (remainingRows_after hpk hrow hu hname)
    · have hlimits : acceptedLimits (limit :: limits) = [] := by
        rw [acceptedLimits, List.takeWhile_cons_of_neg (by simpa using haccepted)]
        rfl
      have hrefused : ¬ (1 ≤ limit ∧ limit ≤ 100) := haccepted
      rw [walk, pullOffline_refused rfl hrefused, hlimits]
      rfl

/-- A walk with another cursor hands out nothing. -/
theorem walk_nil_or (coll : Collation) (t : Tables) (session : ConnectionSession)
    (limits : List Int) (since : Bytes) :
    walk coll t session limits since = [] ∨ Validator.cursor since = none ∧
      remainingRows coll t session.userId since ≠ [] := by
  cases limits with
  | nil => exact .inl rfl
  | cons limit limits =>
    rw [walk]
    by_cases hok : (pullOffline coll t session ⟨limit, [], since⟩).code = .ok
    · obtain ⟨-, -, hcursor, -⟩ := pullOffline_ok_iff.mp hok
      by_cases hnil : remainingRows coll t session.userId since = []
      · refine .inl ?_
        rw [pullOffline_eq hok]
        simp [hnil]
      · exact .inr ⟨hcursor, hnil⟩
    · refine .inl ?_
      rw [pullOffline_failed hok]
      rfl

/-- Wherever it starts, a walk hands out messages of the inbox in the order of
their keys. -/
theorem walk_sorted (hpk : t.PrimaryKey coll)
    (hrows : ∀ m ∈ t.inbox session.userId, Readable m) (limits : List Int) (since : Bytes) :
    ∃ rows : List MessageRecord,
      walk coll t session limits since = rows.map ChatService.offlineMessage ∧
      rows.Pairwise (fun m m' => m.key coll < m'.key coll) ∧
      ∀ m ∈ rows, m ∈ t.inbox session.userId := by
  rcases walk_nil_or coll t session limits since with hnil | ⟨hcursor, hne⟩
  · exact ⟨[], hnil, .nil, fun _ hm => nomatch hm⟩
  · obtain ⟨after, hafter⟩ := (remainingRows_cases coll t session.userId since).resolve_left hne
    have htake := Keyset.walk_eq_take (hpk.keyed session.userId) (@acceptedLimits_pos limits) after
    refine ⟨_, walk_eq hpk hrows limits hcursor hafter, ?_, fun m hm => ?_⟩
    · rw [htake]
      exact (Keyset.remaining_sorted (hpk.keyed session.userId) after).sublist
        (List.take_sublist _ _)
    · exact (Keyset.mem_remaining.mp (List.mem_of_mem_take (htake ▸ hm))).1

/-! ## Conversation order -/

/-- Messages of one conversation stand in the order of their numbers. -/
def InSequence (messages : List OfflineMessage) : Prop :=
  messages.Pairwise fun a b => a.conversationId = b.conversationId → a.sequence < b.sequence

/-- The unique key `(conversation_id, sequence)` of `messages`. -/
def SequenceKey (coll : Collation) (t : Tables) : Prop :=
  (t.messages.map fun m => (coll m.conversationId, m.sequence)).Nodup

theorem SendInput.Stored.id_eq {x : SendInput} {m : MessageRecord} (h : x.Stored m) :
    m.id = x.messageId := congrArg MessageRecord.id h

theorem SendInput.Stored.createdAt_eq {x : SendInput} {m : MessageRecord} (h : x.Stored m) :
    m.createdAt = x.now := congrArg MessageRecord.createdAt h

/-- What a call has stored can be pulled. -/
theorem SendInput.Stored.readable {x : SendInput} {m : MessageRecord} (h : x.Stored m) :
    Readable m := by
  have hconversation : m.conversationId = buildConversationId x.session.userId x.req.toUserId :=
    congrArg MessageRecord.conversationId h
  have hclient : m.clientMsgId = x.req.clientMsgId := congrArg MessageRecord.clientMsgId h
  have hcontent : m.content = x.req.content := congrArg MessageRecord.content h
  have hcursor := cursor_messageId x
  obtain ⟨hsender, hrecipient⟩ := x.users
  -- a `conv_` id is made of two decimal `int64_t`, of at most twenty characters each
  have hlow : (intText (min x.session.userId x.req.toUserId)).length ≤ 20 := by
    rcases min_choice x.session.userId x.req.toUserId with h | h <;> rw [h]
    · exact length_intText_le hsender
    · exact length_intText_le hrecipient
  have hhigh : (intText (max x.session.userId x.req.toUserId)).length ≤ 20 := by
    rcases max_choice x.session.userId x.req.toUserId with h | h <;> rw [h]
    · exact length_intText_le hsender
    · exact length_intText_le hrecipient
  unfold Readable Nameable
  rw [h.id_eq]
  refine ⟨hcursor, fits_messageColumns.mpr ?_⟩
  rw [h.id_eq, hconversation, hclient, hcontent]
  have hid : x.messageId.length = 36 := by simp [messageId, buildMessageId, str]
  have hclientLength := Validator.length_of_accepted x.clientMsgId
  have hcontentLength := Validator.length_of_content x.content
  refine ⟨by omega, ?_, by omega, by omega⟩
  rw [buildConversationId, List.length_append, List.length_append, List.length_append]
  show 5 + _ + 1 + _ ≤ 65
  omega

theorem key_lt_iff (hcoll : OrdersHex coll) {x y : SendInput} {m m' : MessageRecord}
    (hx : x.Stored m) (hy : y.Stored m') : m.key coll < m'.key coll ↔ x.Before y := by
  rw [MessageRecord.key, MessageRecord.key, Prod.Lex.toLex_lt_toLex, hx.id_eq, hy.id_eq,
    hx.createdAt_eq, hy.createdAt_eq, messageId_lt_iff hcoll]
  rfl

/-- Two messages of an inbox are in one order or the other. -/
theorem key_lt_or_lt (hpk : t.PrimaryKey coll) {u : UserId} {m m' : MessageRecord}
    (hm : m ∈ t.inbox u) (hm' : m' ∈ t.inbox u) (hne : m ≠ m') :
    m.key coll < m'.key coll ∨ m'.key coll < m.key coll := by
  refine lt_or_gt_of_ne fun hkey => hne ?_
  exact List.inj_on_of_nodup_map (hpk.keyed u) hm hm' hkey

/-- From the start, a walk hands out a beginning of the inbox in order. -/
theorem walk_eq_take (hpk : t.PrimaryKey coll)
    (hrows : ∀ m ∈ t.inbox session.userId, Readable m) (limits : List Int) :
    walk coll t session limits [] =
      ((Keyset.remaining (MessageRecord.key coll) none (t.inbox session.userId)).take
        (acceptedLimits limits).sum).map ChatService.offlineMessage := by
  rw [← Keyset.walk_eq_take (hpk.keyed session.userId) acceptedLimits_pos]
  exact walk_eq hpk hrows limits rfl rfl

/-- With one message a page and enough pages, it hands out all of it. -/
theorem exists_walk_all (hpk : t.PrimaryKey coll)
    (hrows : ∀ m ∈ t.inbox session.userId, Readable m) :
    ∃ limits, walk coll t session limits [] =
      (Keyset.remaining (MessageRecord.key coll) none (t.inbox session.userId)).map
        ChatService.offlineMessage := by
  -- one page for each message
  refine ⟨List.replicate (t.inbox session.userId).length 1, ?_⟩
  have haccepted : acceptedLimits (List.replicate (t.inbox session.userId).length 1) =
      List.replicate (t.inbox session.userId).length 1 := by
    have hall : ∀ l ∈ List.replicate (t.inbox session.userId).length (1 : Int),
        decide (0 < l ∧ l ≤ ChatService.maxPullOfflineLimit) = true := by
      intro l hl
      rw [List.eq_of_mem_replicate hl]
      decide
    rw [acceptedLimits, List.takeWhile_eq_self_iff.mpr hall, List.map_replicate]
    rfl
  have hlength : (Keyset.remaining (MessageRecord.key coll) none
      (t.inbox session.userId)).length ≤ (t.inbox session.userId).length := by
    unfold Keyset.remaining
    rw [List.length_insertionSort]
    exact List.length_filter_le _ _
  rw [walk_eq_take hpk hrows, haccepted, List.sum_replicate_nat, Nat.mul_one,
    List.take_of_length_le hlength]

/-- A walk over stored messages of `sendMessage` respects the order of every
conversation, whatever its limits and its start, exactly if messages of one conversation are
sent in the order of the query: at a later second, or in the same second with
the larger id. -/
theorem walk_in_sequence_iff (hcoll : OrdersHex coll) (hpk : t.PrimaryKey coll)
    (hseq : SequenceKey coll t) {x : MessageRecord → SendInput}
    (hx : ∀ m ∈ t.messages, (x m).Stored m) :
    (∀ limits since, InSequence (walk coll t session limits since)) ↔
      ∀ m ∈ t.inbox session.userId, ∀ m' ∈ t.inbox session.userId,
        m.conversationId = m'.conversationId → m.sequence < m'.sequence → (x m).Before (x m') := by
  have hstored : ∀ m ∈ t.inbox session.userId, (x m).Stored m := fun m hm =>
    hx m (mem_inbox.mp hm).1
  have hrows : ∀ m ∈ t.inbox session.userId, Readable m := fun m hm => (hstored m hm).readable
  have hsorted := Keyset.remaining_sorted (hpk.keyed session.userId) none
  constructor
  · intro hall m hm m' hm' hconv hlt
    have hne : m ≠ m' := fun h => by rw [h] at hlt; omega
    rcases key_lt_or_lt hpk hm hm' hne with hkey | hkey
    · exact (key_lt_iff hcoll (hstored m hm) (hstored m' hm')).mp hkey
    · -- the walk over everything has `m'` before `m`, against their numbers
      obtain ⟨limits, hwalk⟩ := exists_walk_all hpk hrows
      have hwhole := hall limits []
      rw [hwalk, InSequence, List.pairwise_map] at hwhole
      have hmem : ∀ r ∈ t.inbox session.userId,
          r ∈ Keyset.remaining (MessageRecord.key coll) none (t.inbox session.userId) :=
        fun r hr => Keyset.mem_remaining.mpr ⟨hr, fun _ hc => nomatch hc⟩
      have hwrong : m'.sequence < m.sequence :=
        Keyset.rel_of_key_lt hwhole hsorted (hmem m' hm') (hmem m hm) hkey hconv.symm
      omega
  · intro hbefore limits since
    obtain ⟨rows, hwalk, hkeys, hinbox⟩ := walk_sorted hpk hrows limits since
    rw [hwalk, InSequence, List.pairwise_map]
    refine hkeys.imp_of_mem fun {m m'} hm hm' hkey hconv => ?_
    have hm := hinbox m hm
    have hm' := hinbox m' hm'
    rcases lt_trichotomy m.sequence m'.sequence with hlt | heq | hgt
    · exact hlt
    · -- one number, one row
      have hsame : m = m' := List.inj_on_of_nodup_map hseq (mem_inbox.mp hm).1
        (mem_inbox.mp hm').1 (Prod.ext (congrArg coll hconv) heq)
      rw [hsame] at hkey
      exact absurd hkey (lt_irrefl _)
    · have hother := hbefore m' hm' m hm hconv.symm hgt
      rw [← key_lt_iff hcoll (hstored m' hm') (hstored m hm)] at hother
      exact absurd hkey hother.asymm

end

/-! ## Runs -/

/-- Message `k` of user 1 to user 2, sent at second `now`. -/
def toBob (now : Timestamp) (k : Nat) : SendInput where
  session := ⟨true, 1, str "alice", []⟩
  req := ⟨str "m" ++ hexPad 16 k ++ hexPad 16 0, 2, str "hi"⟩
  now := now
  pid := 7
  counter := k + 1
  random := 0
  users := by
    show IsInt64 1 ∧ IsInt64 2
    unfold IsInt64
    decide
  clientMsgId := (accepted_of_hex (by decide) (by decide) _ k 0).1
  content := by
    show Validator.messageContent (str "hi") = none
    decide

def bob : ConnectionSession := ⟨true, 2, str "bob", []⟩

/-- Two messages, a second apart, as the table holds them. -/
def calm : Tables where
  messages := [{ (toBob 100 1).pending with sequence := 1 },
    { (toBob 101 2).pending with sequence := 2 }]

/-- The two messages of `calm` under the theorem: each second has the smaller
counter part of the id last, but the seconds differ. -/
theorem walk_in_sequence_calm : InSequence (walk id calm bob [1, 100] []) := by
  have hpk : calm.PrimaryKey id := by
    unfold Tables.PrimaryKey
    decide +kernel
  have hseq : SequenceKey id calm := by
    unfold SequenceKey
    decide +kernel
  have hstored : ∀ m ∈ calm.messages, (toBob m.createdAt m.sequence.toNat).Stored m := by
    intro m hm
    rcases List.mem_cons.mp hm with rfl | hm
    · rfl
    · obtain rfl := List.mem_singleton.mp hm
      rfl
  refine (walk_in_sequence_iff ordersHex_id hpk hseq hstored).mpr ?_ _ _
  decide +kernel

/-- Three messages in one second, stored one after the other. -/
def burst : List (Label (Fin 1) (Fin 3)) :=
  (List.finRange 3).flatMap fun k =>
    [.cacheLookup k none, .borrow k 0] ++ List.replicate 9 (.exec 0 .done)

/-- The counter goes through 1, 2, 3; exclusive or with the sender's id 1 makes
that 0, 3, 2, and the third message is handed out before the second. -/
theorem walk_out_of_sequence :
    ∃ s, (lts id fun k : Fin 3 => (toBob 100 k).pending :
        Lts (State (Fin 1) (Fin 3)) (Label (Fin 1) (Fin 3))).Reachable s ∧
      ((walk id (s.tables id) bob [100] []).map fun m => (m.conversationId, m.sequence)) =
        [(str "conv_1_2", 1), (str "conv_1_2", 3), (str "conv_1_2", 2)] ∧
      ¬ InSequence (walk id (s.tables id) bob [100] []) := by
  obtain ⟨s, hs, h⟩ := Lts.exists_reach_of_run
    (M := (lts id fun k : Fin 3 => (toBob 100 k).pending :
      Lts (State (Fin 1) (Fin 3)) (Label (Fin 1) (Fin 3))))
    (s := { conns := fun _ => {}, calls := fun _ => .ready })
    (fun s => decide (((walk id (s.tables id) bob [100] []).map fun m =>
      (m.conversationId, m.sequence)) =
        [(str "conv_1_2", 1), (str "conv_1_2", 3), (str "conv_1_2", 2)]))
    burst ⟨rfl, fun _ => ⟨rfl, rfl, rfl⟩, fun _ => rfl, fun _ => rfl⟩ Lts.runOk_true
    (by decide +kernel)
  have hwalk := of_decide_eq_true h
  refine ⟨s, hs, hwalk, fun hseq => ?_⟩
  -- the list of the run is not sorted by its second part
  have hpairs : ((walk id (s.tables id) bob [100] []).map fun m =>
      (m.conversationId, m.sequence)).Pairwise fun a b => a.1 = b.1 → a.2 < b.2 :=
    List.pairwise_map.mpr hseq
  rw [hwalk] at hpairs
  revert hpairs
  decide

end ChatServer.Service
