import ChatServer.Codec.JsonCodec

/-!
# Request payloads

The `parse…Request` functions of `JsonCodec`: the `data` object of a message
is checked field by field and copied into a request. A failed check answers
with its message, an ASCII text.
-/

namespace ChatServer.Codec

open Base Json

/-! ## Field checks -/

/-- A string field, with one message for both ways to fail. -/
def requiredString (data : Json) (key : String) : Except String Bytes :=
  match string? (data.field? (str key)) with
  | some s => .ok s
  | none => .error ("Missing or invalid '" ++ key ++ "' field in data")

def requiredInteger (data : Json) (key : String) : Except String Int :=
  match integer? (data.field? (str key)) with
  | some i => .ok i
  | none => .error ("Missing or invalid '" ++ key ++ "' field in data")

def invalidField (key problem : String) : String :=
  "Invalid '" ++ key ++ "' field in data: " ++ problem

/-- A string field, with a message for each way to fail. -/
def stringField (data : Json) (key : String) : Except String Bytes :=
  match data.field? (str key) with
  | none => .error ("Missing '" ++ key ++ "' field in data")
  | some v =>
    match string? (some v) with
    | some s => .ok s
    | none => .error (invalidField key "must be a string")

def integerField (data : Json) (key : String) : Except String Int :=
  match data.field? (str key) with
  | none => .error ("Missing '" ++ key ++ "' field in data")
  | some v =>
    match integer? (some v) with
    | some i => .ok i
    | none => .error (invalidField key "must be an integer")

/-- A string field that may be left out. -/
def optionalString (data : Json) (key : String) : Except String (Option Bytes) :=
  match data.field? (str key) with
  | none => .ok none
  | some v =>
    match string? (some v) with
    | some s => .ok (some s)
    | none => .error (invalidField key "must be a string")

/-- An array field that may be left out, with the check of its items. -/
def optionalItems {α : Type} (data : Json) (key : String) (item : Option Json → Option α)
    (problem : String) : Except String (List α) :=
  match data.field? (str key) with
  | none => .ok []
  | some (.array items) =>
    match items.mapM fun v => item (some v) with
    | some values => .ok values
    | none => .error (invalidField key problem)
  | some _ => .error (invalidField key "must be an array")

/-! ## Requests -/

structure RegisterRequest where
  username : Bytes
  password : Bytes
  nickname : Bytes
  deriving DecidableEq, Repr

structure LoginRequest where
  username : Bytes
  password : Bytes
  deriving DecidableEq, Repr

structure SendMessageRequest where
  clientMsgId : Bytes
  toUserId : UserId
  content : Bytes
  deriving DecidableEq, Repr

structure PullOfflineMessagesRequest where
  limit : Int
  beforeMessageId : Bytes
  sinceMessageId : Bytes
  deriving DecidableEq, Repr

structure CreateGroupRequest where
  name : Bytes
  memberIds : List UserId
  deriving DecidableEq, Repr

structure AddGroupMemberRequest where
  groupId : Bytes
  userId : UserId
  deriving DecidableEq, Repr

structure SendGroupMessageRequest where
  groupId : Bytes
  clientMsgId : Bytes
  content : Bytes
  deriving DecidableEq, Repr

/-- `parseRegisterRequest`; a nickname that is no string counts as empty. -/
def parseRegisterRequest (data : Json) : Except String RegisterRequest := do
  let username ← requiredString data "username"
  let password ← requiredString data "password"
  return { username, password, nickname := (string? (data.field? (str "nickname"))).getD [] }

/-- `parseLoginRequest`. -/
def parseLoginRequest (data : Json) : Except String LoginRequest := do
  let username ← requiredString data "username"
  let password ← requiredString data "password"
  return { username, password }

/-- `parseSendMessageRequest`. -/
def parseSendMessageRequest (data : Json) : Except String SendMessageRequest := do
  let clientMsgId ← stringField data "client_msg_id"
  let toUserId ← integerField data "to_user_id"
  let content ← stringField data "content"
  return { clientMsgId, toUserId := toInt64 toUserId, content }

/-- `parsePullOfflineMessagesRequest`. -/
def parsePullOfflineMessagesRequest (data : Json) : Except String PullOfflineMessagesRequest := do
  let limit ← integerField data "limit"
  let beforeMessageId ← optionalString data "before_message_id"
  let sinceMessageId ← optionalString data "since_message_id"
  return {
    limit := toInt32 limit
    beforeMessageId := beforeMessageId.getD []
    sinceMessageId := sinceMessageId.getD [] }

/-- `ParseMessageIds`, behind `parseMessageAckRequest` and
`parseMarkMessageReadRequest`. -/
def parseMessageIds (data : Json) : Except String (List Bytes) := do
  let messageId ← optionalString data "message_id"
  let messageIds ← optionalItems data "message_ids" string? "every item must be a string"
  if messageId.toList ++ messageIds = [] then
    .error "Missing 'message_id' or 'message_ids' field in data"
  else
    return messageId.toList ++ messageIds

/-- `parseAddFriendRequest`, `parseAcceptFriendRequest` and
`parseDeleteFriendRequest`, with their field. -/
def parseUserField (key : String) (data : Json) : Except String UserId := do
  return toInt64 (← integerField data key)

def parseAddFriendRequest : Json → Except String UserId := parseUserField "target_user_id"

def parseAcceptFriendRequest : Json → Except String UserId := parseUserField "requester_user_id"

def parseDeleteFriendRequest : Json → Except String UserId := parseUserField "friend_user_id"

/-- `parseCreateGroupRequest`. -/
def parseCreateGroupRequest (data : Json) : Except String CreateGroupRequest := do
  let name ← requiredString data "name"
  let memberIds ← optionalItems data "member_ids" integer? "every item must be an integer"
  return { name, memberIds := memberIds.map toInt64 }

/-- `parseAddGroupMemberRequest`. -/
def parseAddGroupMemberRequest (data : Json) : Except String AddGroupMemberRequest := do
  let groupId ← requiredString data "group_id"
  let userId ← requiredInteger data "user_id"
  return { groupId, userId := toInt64 userId }

/-- `parseSendGroupMessageRequest`. -/
def parseSendGroupMessageRequest (data : Json) : Except String SendGroupMessageRequest := do
  let groupId ← requiredString data "group_id"
  let clientMsgId ← requiredString data "client_msg_id"
  let content ← requiredString data "content"
  return { groupId, clientMsgId, content }

/-! ## The strings of a request are UTF-8 -/

/-- The request, if the parse succeeds, meets `Q`. -/
def Parsed {α : Type} (Q : α → Prop) (x : Except String α) : Prop := ∀ a, x = .ok a → Q a

theorem Parsed.bind {α β : Type} {P : α → Prop} {Q : β → Prop} {x : Except String α}
    {f : α → Except String β} (hx : Parsed P x) (hf : ∀ a, P a → Parsed Q (f a)) :
    Parsed Q (x >>= f) := by
  cases x with
  | error e => exact fun _ h => nomatch h
  | ok a => exact hf a (hx a rfl)

theorem parsed_return {α : Type} {Q : α → Prop} {a : α} (h : Q a) :
    Parsed Q (pure a : Except String α) := by
  intro b hb
  obtain rfl : a = b := Except.ok.inj hb
  exact h

/-- Nothing is asked of the result. -/
theorem parsed_any {α : Type} (x : Except String α) : Parsed (fun _ => True) x := fun _ _ => trivial

variable {data : Json}

theorem requiredString_parsed (h : data.Clean) (key : String) :
    Parsed Utf8.WellFormed (requiredString data key) := by
  intro s hs
  unfold requiredString at hs
  split at hs
  next t ht =>
    obtain rfl : t = s := Except.ok.inj hs
    exact h.string ht
  next => cases hs

theorem optionalString_parsed (h : data.Clean) (key : String) :
    Parsed (fun s => ∀ t ∈ s, Utf8.WellFormed t) (optionalString data key) := by
  intro s hs
  unfold optionalString at hs
  split at hs
  next =>
    obtain rfl : none = s := Except.ok.inj hs
    exact fun _ ht => nomatch ht
  next v hv =>
    split at hs
    next t ht =>
      obtain rfl : some t = s := Except.ok.inj hs
      intro u hu
      obtain rfl := Option.some.inj hu
      exact h.string (hv ▸ ht)
    next => cases hs

private theorem mem_of_mapM {α β : Type} {f : α → Option β} {b : β} : ∀ {as : List α} {bs : List β},
    as.mapM f = some bs → b ∈ bs → ∃ a ∈ as, f a = some b
  | [], bs, h, hb => by
      obtain rfl : [] = bs := by simpa using h
      cases hb
  | a :: as, bs, h, hb => by
      simp only [List.mapM_cons, Option.pure_def, Option.bind_eq_bind,
        Option.bind_eq_some_iff, Option.some.injEq] at h
      obtain ⟨c, hc, cs, hcs, rfl⟩ := h
      obtain rfl | hb := List.mem_cons.mp hb
      · exact ⟨a, List.mem_cons_self, hc⟩
      · obtain ⟨a', ha', hfa⟩ := mem_of_mapM hcs hb
        exact ⟨a', List.mem_cons_of_mem _ ha', hfa⟩

theorem optionalStrings_parsed (h : data.Clean) (key problem : String) :
    Parsed (fun l => ∀ s ∈ l, Utf8.WellFormed s) (optionalItems data key string? problem) := by
  intro l hl
  unfold optionalItems at hl
  split at hl
  next =>
    obtain rfl : [] = l := Except.ok.inj hl
    exact fun _ hs => nomatch hs
  next items hitems =>
    split at hl
    next values hvalues =>
      obtain rfl : values = l := Except.ok.inj hl
      have hclean := cleanItems_iff.mp (h.field hitems)
      intro s hs
      obtain ⟨v, hv, hvs⟩ := mem_of_mapM hvalues hs
      cases v with
      | string t =>
        obtain rfl : t = s := Option.some.inj hvs
        exact hclean _ hv
      | _ => cases hvs
    next => cases hl
  next => cases hl

theorem parseMessageIds_parsed (h : data.Clean) :
    Parsed (fun l => ∀ s ∈ l, Utf8.WellFormed s) (parseMessageIds data) := by
  refine (optionalString_parsed h _).bind fun messageId hone => ?_
  refine (optionalStrings_parsed h _ _).bind fun messageIds hmany => ?_
  split_ifs
  · exact fun _ hl => nomatch hl
  · refine parsed_return fun s hs => ?_
    obtain hs | hs := List.mem_append.mp hs
    · exact hone s (Option.mem_toList.mp hs)
    · exact hmany s hs

theorem parseSendGroupMessageRequest_parsed (h : data.Clean) :
    Parsed (fun r => Utf8.WellFormed r.groupId ∧ Utf8.WellFormed r.content)
      (parseSendGroupMessageRequest data) :=
  (requiredString_parsed h _).bind fun _ hgroup => (parsed_any _).bind fun _ _ =>
    (requiredString_parsed h _).bind fun _ hcontent => parsed_return ⟨hgroup, hcontent⟩

end ChatServer.Codec
