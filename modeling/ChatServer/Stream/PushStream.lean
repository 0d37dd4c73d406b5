import ChatServer.Service.Interface

/-!
# `RedisPushStream`

The push stream of one server: other servers add entries, the single consumer
of the group claims pending entries, reads new ones and serves them one by one.
Every Redis command may fail, with or without having taken effect. A dedup key
with a time to live remembers the messages that were taken up.

The retry stream, which `PollOnce` serves afterwards, has entries and keys of its
own and is left out. The fields `callbacks` and `acked` are a history of what the
consumer did; no step reads them.
-/

namespace ChatServer.Stream

open Redis Service

/-- `kDeliveryDedupTtlSeconds`. -/
def kDeliveryDedupTtlSeconds : Nat := 86400

/-- `kBatchSize`. -/
def kBatchSize : Nat := 20

/-- `RedisPushStream::StreamEntry`. -/
structure StreamEntry where
  streamId : Nat
  fields : List (Bytes × Bytes)
  deriving DecidableEq

/-- A field of the entry; of several with one name `ParseFields` keeps the last. -/
def StreamEntry.field (entry : StreamEntry) (name : String) : Option Bytes :=
  ((entry.fields.filter fun f => f.1 = str name).getLast?).map (·.2)

/-- `DecodePushEvent`. -/
def decodePushEvent (entry : StreamEntry) : Option RemotePushEvent := do
  let eventId ← entry.field "event_id"
  let messageId ← entry.field "message_id"
  let fromUserId ← parseInteger (← entry.field "from_user_id")
  let toUserId ← parseInteger (← entry.field "to_user_id")
  let connection ← parseInteger (← entry.field "connection_id")
  let payload ← entry.field "payload"
  if eventId = [] ∨ messageId = [] ∨ fromUserId ≤ 0 ∨ toUserId ≤ 0 ∨ connection ≤ 0 ∨
      payload = [] then none
  else some ⟨eventId, messageId, fromUserId, toUserId, connection.toNat, payload⟩

/-- The fields `Publish` writes. -/
def pushFields (event : RemotePushEvent) : List (Bytes × Bytes) :=
  [(str "event_id", event.eventId), (str "message_id", event.messageId),
    (str "from_user_id", intText event.fromUserId), (str "to_user_id", intText event.toUserId),
    (str "connection_id", natText event.targetConnectionId), (str "payload", event.payload)]

/-- `PushStreamKey`. -/
def pushStreamKey (keyPrefix server : Bytes) : Bytes := keyPrefix ++ str ":push:stream:" ++ server

/-- `RetryStreamKey`. -/
def retryStreamKey (keyPrefix server : Bytes) : Bytes :=
  keyPrefix ++ str ":delivery:retry:" ++ server

/-- `DeadLetterStreamKey`. -/
def deadLetterStreamKey (keyPrefix server : Bytes) : Bytes :=
  keyPrefix ++ str ":push:dlq:" ++ server

/-- `DeliveryDedupKey`. -/
def deliveryDedupKey (cfg : RedisConfig) (messageId : Bytes) : Bytes :=
  cfg.keyPrefix ++ str ":push:dedup:" ++ cfg.serverId ++ str ":" ++ messageId

/-- How a command ends. -/
inductive Reply where
  | answered
  /-- no answer; it may have taken effect -/
  | failed (effect : Bool)
  deriving DecidableEq

/-- The command changed the server. -/
def Reply.effective : Reply → Bool
  | .answered => true
  | .failed effect => effect

/-- A call of the delivery callback. -/
structure CallbackRecord where
  streamId : Nat
  messageId : Bytes
  outcome : RemoteDeliveryOutcome
  /-- when it returned -/
  returned : Nat
  /-- when the dedup key that was set for it expires -/
  expires : Nat
  deriving DecidableEq

/-- Where the consumer is in `PollOnce`; what comes next is a Redis command, the
callback or the next entry. -/
inductive Consumer where
  | idle
  /-- `XAUTOCLAIM` -/
  | claiming
  /-- `XREADGROUP` -/
  | reading (claimed : List StreamEntry)
  | processing (rest : List StreamEntry)
  /-- `XADD` to the dead-letter stream -/
  | moving (entry : StreamEntry) (rest : List StreamEntry)
  /-- `SET` of the dedup key -/
  | acquiring (entry : StreamEntry) (event : RemotePushEvent) (rest : List StreamEntry)
  /-- the callback; the key that was set expires at `expires` -/
  | delivering (entry : StreamEntry) (event : RemotePushEvent) (expires : Nat)
      (rest : List StreamEntry)
  /-- `DEL` of the dedup key -/
  | releasing (entry : StreamEntry) (event : RemotePushEvent) (rest : List StreamEntry)
  /-- `XACK` -/
  | acking (entry : StreamEntry) (rest : List StreamEntry)
  deriving DecidableEq

structure PushStream where
  now : Nat := 0
  hasCallback : Bool := true
  entries : List StreamEntry := []
  /-- how many entries the group has handed out -/
  handedOut : Nat := 0
  /-- the pending entries of the group -/
  pending : List Nat := []
  /-- the dedup keys, with the time they expire -/
  dedup : Bytes → Option Nat := fun _ => none
  deadLetters : List Nat := []
  consumer : Consumer := .idle
  callbacks : List CallbackRecord := []
  /-- the entries an `XACK` was sent for -/
  acked : List StreamEntry := []

inductive Label where
  | tick (seconds : Nat)
  /-- some server adds an entry; `Publish` does with `pushFields` -/
  | xadd (fields : List (Bytes × Bytes))
  | pollOnce
  /-- the entries `XAUTOCLAIM` returns, if it is answered -/
  | claim (ids : Option (List Nat))
  | command (reply : Reply)
  | nextEntry
  | callback (outcome : RemoteDeliveryOutcome)
  deriving DecidableEq

namespace PushStream

variable (cfg : RedisConfig) (s : PushStream)

/-- The dedup key of a message exists. -/
def keyLive (messageId : Bytes) : Bool :=
  (s.dedup (deliveryDedupKey cfg messageId)).any fun expires => s.now < expires

def setKey (messageId : Bytes) (expires : Option Nat) : PushStream :=
  { s with dedup := Function.update s.dedup (deliveryDedupKey cfg messageId) expires }

/-- `XREADGROUP … COUNT 20 … >`: new entries become pending, whether or not the
answer arrives. -/
def readNew (claimed : List StreamEntry) (reply : Reply) : PushStream :=
  let new := (s.entries.drop s.handedOut).take kBatchSize
  let s :=
    if reply.effective then
      { s with
        handedOut := s.handedOut + new.length
        pending := s.pending ++ new.map (·.streamId) }
    else s
  { s with consumer := .processing (claimed ++ if reply = .answered then new else []) }

/-- The beginning of `ProcessPushEntry`. -/
def nextEntry : List StreamEntry → PushStream
  | [] => { s with consumer := .idle }
  | entry :: rest =>
    match decodePushEvent entry with
    | none => { s with consumer := .moving entry rest }
    | some event =>
      { s with
        consumer := if s.hasCallback then .acquiring entry event rest else .processing rest }

/-- `MoveToDeadLetter`; without an answer the entry stays pending. -/
def moveToDeadLetter (entry : StreamEntry) (rest : List StreamEntry) (reply : Reply) :
    PushStream :=
  { s with
    deadLetters := if reply.effective then s.deadLetters ++ [entry.streamId] else s.deadLetters
    consumer := if reply = .answered then .acking entry rest else .processing rest }

/-- `SET key 1 NX EX`; a key that exists is answered with nil. -/
def acquire (entry : StreamEntry) (event : RemotePushEvent) (rest : List StreamEntry)
    (reply : Reply) : PushStream :=
  let expires := s.now + kDeliveryDedupTtlSeconds
  if s.keyLive cfg event.messageId then
    { s with consumer := if reply = .answered then .acking entry rest else .processing rest }
  else if reply.effective then
    { s.setKey cfg event.messageId (some expires) with
      consumer :=
        if reply = .answered then .delivering entry event expires rest else .processing rest }
  else { s with consumer := .processing rest }

/-- The callback returns. -/
def deliver (entry : StreamEntry) (event : RemotePushEvent) (expires : Nat)
    (rest : List StreamEntry) (outcome : RemoteDeliveryOutcome) : PushStream :=
  { s with
    callbacks := s.callbacks ++ [⟨entry.streamId, event.messageId, outcome, s.now, expires⟩]
    consumer :=
      if outcome = .retry then .releasing entry event rest else .acking entry rest }

/-- `DEL key`, whose answer is not looked at. -/
def release (event : RemotePushEvent) (rest : List StreamEntry) (reply : Reply) : PushStream :=
  { if reply.effective then s.setKey cfg event.messageId none else s with
    consumer := .processing rest }

/-- `Ack`. -/
def ack (entry : StreamEntry) (rest : List StreamEntry) (reply : Reply) : PushStream :=
  { s with
    acked := s.acked ++ [entry]
    pending := if reply.effective then s.pending.filter (· ≠ entry.streamId) else s.pending
    consumer := .processing rest }

/-- The consumer's next Redis command. -/
def command (reply : Reply) : Option PushStream :=
  match s.consumer with
  | .reading claimed => some (s.readNew claimed reply)
  | .moving entry rest => some (s.moveToDeadLetter entry rest reply)
  | .acquiring entry event rest => some (s.acquire cfg entry event rest reply)
  | .releasing _ event rest => some (s.release cfg event rest reply)
  | .acking entry rest => some (s.ack entry rest reply)
  | .idle | .claiming | .processing _ | .delivering _ _ _ _ => none

def step : Label → Option PushStream
  | .tick seconds => some { s with now := s.now + seconds }
  | .xadd fields => some { s with entries := s.entries ++ [⟨s.entries.length, fields⟩] }
  | .pollOnce => if s.consumer = .idle then some { s with consumer := .claiming } else none
  | .claim ids =>
    let ids := ids.getD []
    if s.consumer = .claiming ∧ ids.length ≤ kBatchSize ∧ ∀ id ∈ ids, id ∈ s.pending then
      some { s with consumer := .reading (s.entries.filter fun e => e.streamId ∈ ids) }
    else none
  | .command reply => s.command cfg reply
  | .nextEntry =>
    match s.consumer with
    | .processing rest => some (s.nextEntry rest)
    | _ => none
  | .callback outcome =>
    match s.consumer with
    | .delivering entry event expires rest => some (s.deliver entry event expires rest outcome)
    | _ => none

/-- An empty stream, no dedup key, and a consumer that has not begun. -/
def Initial : Prop :=
  s.entries = [] ∧ s.handedOut = 0 ∧ s.pending = [] ∧ s.dedup = (fun _ => none) ∧
    s.deadLetters = [] ∧ s.consumer = .idle ∧ s.callbacks = [] ∧ s.acked = []

end PushStream

/-- The push stream of the server `cfg.serverId` with its consumer. -/
def lts (cfg : RedisConfig) : Base.Lts PushStream Label where
  Init := PushStream.Initial
  step s l := s.step cfg l

end ChatServer.Stream
