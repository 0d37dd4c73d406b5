import ChatServer.Json.ParserSound

/-!
# The protocol codec

`JsonCodec`: the envelope of requests and responses. `decodeMessage` catches
the exceptions of the JSON library and turns their text into an error;
`encodeResponse` does not catch what `dump()` throws.
-/

namespace ChatServer.Codec

open Base Json

/-- `chat::Message`. -/
structure Message where
  msgType : Bytes := []
  seq : Nat := 0
  token : Bytes := []
  data : Json := .null
  deriving Repr

/-- `chat::Response`. Its `data` starts as null and is only ever assigned to
field by field; without fields it is written as an empty object. -/
structure Response where
  msgType : Bytes
  seq : Nat := 0
  code : ErrorCode := .ok
  message : Bytes := []
  data : Fields := []
  deriving Repr

/-- The number of an error code. -/
def errorNumber : ErrorCode → Int
  | .ok => 0
  | .invalidParam => 1
  | .invalidJson => 2
  | .invalidPacket => 3
  | .unknownMessageType => 4
  | .userAlreadyExists => 1001
  | .userNotFound => 1002
  | .wrongPassword => 1003
  | .invalidCredentials => 1004
  | .userAlreadyOnline => 1005
  | .dbInitFailed => 2001
  | .dbQueryFailed => 2002
  | .dbInsertFailed => 2003
  | .messageTooLong => 3001
  | .userNotOnline => 3002
  | .cannotSendToSelf => 3003
  | .notLoggedIn => 3004
  | .idempotencyConflict => 3005
  | .rateLimited => 3006
  | .friendRequestAlreadyExists => 4001
  | .friendshipAlreadyExists => 4002
  | .friendRequestNotFound => 4003
  | .friendshipNotFound => 4004
  | .friendshipBlocked => 4005
  | .groupNotFound => 5001
  | .groupMemberAlreadyExists => 5002
  | .permissionDenied => 5003
  | .internalError => 9001

/-- `JsonCodec::decodeMessage`; a rejected packet comes with the message as far
as it was filled and the error text. -/
def decodeMessage (raw : Bytes) : Except (Message × Bytes) Message :=
  match parse raw with
  | .error e => .error ({}, str "JSON parsing error: " ++ e.what)
  | .ok json =>
    match string? (json.field? (str "msg_type")) with
    | none => .error ({}, str "Missing or invalid 'msg_type' field")
    | some msgType =>
      match integer? (json.field? (str "seq")) with
      | none => .error ({}, str "Missing or invalid 'seq' field")
      | some seq =>
        match json.field? (str "data") with
        | some (.object data) =>
          let msg : Message := { msgType, seq := toUInt64 seq, data := .object data }
          match json.field? (str "token") with
          | none => .ok msg
          | some (.string token) => .ok { msg with token }
          | some _ => .error (msg, str "Missing or invalid 'token' field")
        | _ => .error ({}, str "Missing or invalid 'data' field")

/-- The object `encodeResponse` writes. -/
def Response.toJson (resp : Response) : Json :=
  .object (Fields.of
    [(str "msg_type", .string resp.msgType), (str "seq", .numberUnsigned resp.seq),
      (str "code", .numberInteger (errorNumber resp.code)), (str "message", .string resp.message),
      (str "data", .object resp.data)])

/-- `JsonCodec::encodeResponse`. -/
def encodeResponse (resp : Response) : Except JsonException Bytes := dump resp.toJson

/-! ## Which responses can be written -/

/-- Every text of the response is UTF-8. -/
structure Response.Clean (resp : Response) : Prop where
  msgType : Utf8.WellFormed resp.msgType
  message : Utf8.WellFormed resp.message
  data : CleanFields resp.data

/-- `std::map` writes the fields in alphabetical order. -/
theorem Response.toJson_eq (resp : Response) :
    resp.toJson = .object
      [(str "code", .numberInteger (errorNumber resp.code)), (str "data", .object resp.data),
        (str "message", .string resp.message), (str "msg_type", .string resp.msgType),
        (str "seq", .numberUnsigned resp.seq)] := rfl

/-- `encodeResponse` throws exactly when a text is not UTF-8. -/
theorem encodeResponse_isOk (resp : Response) :
    (encodeResponse resp).isOk = true ↔ resp.Clean := by
  rw [encodeResponse, dump_isOk, resp.toJson_eq, Clean, cleanFields_iff]
  constructor
  · intro h
    exact ⟨(h (str "msg_type", .string resp.msgType) (by simp)).2,
      (h (str "message", .string resp.message) (by simp)).2,
      (h (str "data", .object resp.data) (by simp)).2⟩
  · rintro ⟨hmsgType, hmessage, hdata⟩
    simp only [List.forall_mem_cons, str_wellFormed, true_and]
    exact ⟨trivial, hdata, hmessage, hmsgType, trivial, List.forall_mem_nil _⟩

-- From here on a response is written or not, by `encodeResponse_isOk`; nothing
-- is gained by computing its text.
attribute [irreducible] encodeResponse

end ChatServer.Codec
