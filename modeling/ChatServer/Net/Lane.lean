import Mathlib.Algebra.Group.Prod
import Mathlib.Algebra.GroupWithZero.Nat
import ChatServer.Base.Load
import ChatServer.Net.TcpServer

/-!
# The server as one connection sees it

A `Lane` is everything about one connection, without threads and queues: its
context, its history, the packets in the I/O thread's hands, the response
round it is in and the items somewhere in the server that will act on it.

* A `Token` is an item that will end a request: its task, its response, or the
  mark task or event its end was deferred to.
* A fence is a mark task of another connection's round, a wake-up an event
  that looks at the queue again after a fence went down.

`Move` lists what can happen to a lane. `Move.extraToken` is the case the
server's comments do not expect: the end of one request deferred twice.
-/

namespace ChatServer.Net

open ChatServer.Codec ConnectionContext

/-! ## Handler results -/

/-- The response loop would defer the end of this request twice: once for the
delivered batch, once for a same-connection push with a message id. -/
def HandleResult.DefersTwice (c : ConnId) (r : HandleResult) : Prop :=
  r.response ≠ [] ∧ r.deliveredMessageIds ≠ [] ∧
    ∃ p ∈ r.pushes, p.targetConnId = c ∧ p.payload ≠ [] ∧ p.messageId ≠ []

/-- What a result adds to the trace when its response is appended. -/
def HandleResult.responseEvents (r : HandleResult) : List Event :=
  if r.response.isEmpty then [] else [.response r.response]

/-- What a result adds to the trace when its session action is applied. -/
def HandleResult.sessionEvents (r : HandleResult) : List Event :=
  match r.sessionAction with
  | .none => []
  | a => [.session a r.pendingSession]

/-! ## Lanes -/

/-- How far a request is on its way to its end. -/
inductive Stage
  | waiting (request : Bytes)
  | running
  | ran (outcome : Option HandleResult)
  | finishing
  deriving DecidableEq

/-- An item that will end request number `index` of the connection. -/
structure Token where
  index : Nat
  stage : Stage
  deriving DecidableEq

/-- The response round of request number `index`; `applied` once its session
action is applied. -/
structure Round where
  index : Nat
  result : HandleResult
  applied : Bool

/-- Items on their way to a connection: tokens, fences and wake-ups. -/
abbrev Share := Multiset Token × ℕ × ℕ

namespace Share

def token (t : Token) : Share := ({t}, 0, 0)

def fence : Share := (0, 1, 0)

def wake : Share := (0, 0, 1)

@[simp] theorem token_tokens (t : Token) : (token t).1 = {t} := rfl

@[simp] theorem token_others (t : Token) : (token t).2 = 0 := rfl

@[simp] theorem fence_tokens : fence.1 = 0 := rfl

@[simp] theorem fence_others : fence.2 = (1, 0) := rfl

@[simp] theorem wake_tokens : wake.1 = 0 := rfl

@[simp] theorem wake_others : wake.2 = (0, 1) := rfl

/-- Parts of nothing are nothing. -/
theorem eq_zero_of_add {x y : Share} (h : x + y = 0) : x = 0 ∧ y = 0 := by
  obtain ⟨a, m, n⟩ := x
  obtain ⟨b, m', n'⟩ := y
  simp only [Prod.mk_add_mk, Prod.mk_eq_zero] at h
  obtain ⟨htok, hfence, hwake⟩ := h
  have hcard := congrArg Multiset.card htok
  simp only [Multiset.card_add, Multiset.card_zero] at hcard
  have ha : a = 0 := Multiset.card_eq_zero.mp (by omega)
  have hb : b = 0 := Multiset.card_eq_zero.mp (by omega)
  refine ⟨Prod.ext ha (Prod.ext ?_ ?_), Prod.ext hb (Prod.ext ?_ ?_)⟩ <;> simp only [Prod.fst_zero,
    Prod.snd_zero] <;> omega

theorem token_ne_zero (t : Token) : token t ≠ 0 := by
  simp [token, Prod.ext_iff]

theorem fence_ne_zero : fence ≠ 0 := by
  simp [fence, Prod.ext_iff]

theorem wake_ne_zero : wake ≠ 0 := by
  simp [wake, Prod.ext_iff]

end Share

@[ext] structure Lane where
  live : Bool
  stopping : Bool
  context : ConnectionContext
  history : History
  /-- the request granted to the I/O thread and not submitted yet -/
  granted : List Bytes
  /-- the non-empty packets of the last chunk not looked at yet -/
  unread : List Bytes
  round : Option Round
  held : Share

namespace Lane

/-- Nothing in the server refers to the connection. -/
structure Blank (L : Lane) : Prop where
  live : L.live = false
  history : L.history = {}
  granted : L.granted = []
  unread : L.unread = []
  round : L.round = none
  held : L.held = 0

/-- The lane of a connection that was just accepted. -/
def fresh (stopping : Bool) (peerIp : Bytes) : Lane where
  live := true
  stopping := stopping
  context := { peerIp := peerIp }
  history := {}
  granted := []
  unread := []
  round := none
  held := 0

/-- Append to the trace. -/
def record (L : Lane) (es : List Event) : Lane :=
  { L with history := { L.history with trace := L.history.trace ++ es } }

/-- The effect of `finishRequestAndPopNext` or `popNextRequestIfIdle`. -/
def popped (L : Lane) (r : Option Bytes × ConnectionContext) : Lane :=
  { L with context := r.2, granted := r.1.toList }

/-- One change to the lane of connection `c`, whose handler only returns
results with `ok`. -/
inductive Move (c : ConnId) (ok : HandleResult → Prop) : Lane → Lane → Prop
  /-- a chunk is received and framed -/
  | recv {L} (chunk : Bytes) : L.live = true → L.unread = [] → L.granted = [] →
      (L.context.packetCodec.feed chunk).ok = true →
      Move c ok L
        { L with
          context := { L.context with packetCodec := (L.context.packetCodec.feed chunk).codec }
          history :=
            { L.history with
              received := L.history.received ++ chunk
              framed := L.history.framed ++
                (L.context.packetCodec.feed chunk).packets.filter fun p => !p.isEmpty }
          unread := (L.context.packetCodec.feed chunk).packets.filter fun p => !p.isEmpty }
  /-- the next packet is granted or queued -/
  | packet {L} (p : Bytes) (ps : List Bytes) : L.unread = p :: ps → L.granted = [] →
      Move c ok L
        { L with
          context := (L.context.startRequestOrQueue p).2
          granted := if (L.context.startRequestOrQueue p).1 then [p] else []
          unread := ps }
  /-- the granted request goes to the workers -/
  | submit {L} (p : Bytes) : L.granted = [p] → L.stopping = false →
      Move c ok L
        { L with
          granted := []
          history := { L.history with submitted := L.history.submitted ++ [p] }
          held := Share.token ⟨L.history.submitted.length, .waiting p⟩ + L.held }
  /-- a worker calls `handle` -/
  | start {L} (k : Nat) (p : Bytes) (x : Share) : L.held = Share.token ⟨k, .waiting p⟩ + x →
      Move c ok L { L.record [.handleBegin p] with held := Share.token ⟨k, .running⟩ + x }
  /-- `handle` returns or throws -/
  | result {L} (k : Nat) (o : Option HandleResult) (x : Share) :
      L.held = Share.token ⟨k, .running⟩ + x → (∀ r, o = some r → ok r) →
      Move c ok L { L.record [.handleEnd o] with held := Share.token ⟨k, .ran o⟩ + x }
  /-- the response round begins; an empty response is not sent -/
  | answerSilent {L} (k : Nat) (r : HandleResult) (x : Share) :
      L.held = Share.token ⟨k, .ran (some r)⟩ + x → L.round = none → r.response = [] →
      Move c ok L
        { L with
          round := some ⟨k, r, false⟩
          held := Share.token ⟨k, .finishing⟩ + x }
  /-- the response round begins with the response -/
  | answer {L} (k : Nat) (r : HandleResult) (x : Share) :
      L.held = Share.token ⟨k, .ran (some r)⟩ + x → L.round = none → r.response ≠ [] →
      Move c ok L
        { L.record [.response r.response] with
          context := L.context.appendPendingSend (encode r.response)
          round := some ⟨k, r, false⟩
          held := Share.token ⟨k, .finishing⟩ + x }
  /-- the session action is applied -/
  | session {L} (R : Round) (u : UserId) : L.round = some R → R.applied = false →
      Move c ok L
        { L.record R.result.sessionEvents with
          context := { L.context with authenticatedUserId := u }
          round := some { R with applied := true } }
  /-- the end of a request is deferred once more -/
  | extraToken {L} (R : Round) : L.round = some R → R.result.DefersTwice c →
      Move c ok L { L with held := Share.token ⟨R.index, .finishing⟩ + L.held }
  /-- the response round is over -/
  | endRound {L} (R : Round) : L.round = some R → R.applied = true →
      Move c ok L { L with round := none }
  /-- the current request ends and the next may be granted -/
  | finish {L} (k : Nat) (x : Share) : L.held = Share.token ⟨k, .finishing⟩ + x →
      L.round = none → L.granted = [] → L.unread = [] →
      Move c ok L { L.popped L.context.finishRequestAndPopNext with held := x }
  /-- a wake-up looks at the queue -/
  | wake {L} (x : Share) : L.held = Share.wake + x → L.granted = [] → L.unread = [] →
      Move c ok L { L.popped L.context.popNextRequestIfIdle with held := x }
  /-- a fence goes up -/
  | raise {L} : L.live = true →
      Move c ok L
        { L with
          context := L.context.incrementPendingDeliveryMarks
          held := Share.fence + L.held }
  /-- a fence goes down -/
  | release {L} (x : Share) : L.held = Share.fence + x →
      Move c ok L
        { L with
          context := L.context.decrementPendingDeliveryMarks
          held := Share.wake + x }
  /-- a push is appended -/
  | push {L} (payload : Bytes) : L.live = true →
      Move c ok L
        { L.record [.push payload] with
          context := L.context.appendPendingSend (encode payload) }
  /-- part of the send buffer is written -/
  | write {L} (n : Nat) : L.live = true →
      Move c ok L
        { L with
          context := L.context.consumePendingSend n
          history :=
            { L.history with sent := L.history.sent ++ L.context.pendingSend.take n } }
  /-- a stopping server drops a response -/
  | drop {L} (k : Nat) (o : Option HandleResult) (x : Share) : L.stopping = true →
      L.held = Share.token ⟨k, .ran o⟩ + x → Move c ok L { L with held := x }
  /-- a worker of a stopping server clears the queue -/
  | clear {L} : L.stopping = true →
      Move c ok L { L with context := L.context.clearPendingRequests }
  /-- the server is told to stop -/
  | stop {L} : Move c ok L { L with stopping := true }
  /-- the connection is closed -/
  | close {L} : Move c ok L { L with live := false }
  /-- what was under way for a closed connection is dropped -/
  | lose {L L'} (x : Share) : L.live = false → L'.live = false → L'.history = L.history →
      (L'.granted = [] ∨ L'.granted = L.granted) → (L'.unread = [] ∨ L'.unread = L.unread) →
      (L'.round = none ∨ L'.round = L.round) → L.held = x + L'.held → Move c ok L L'

/-- Any number of moves. -/
abbrev Moves (c : ConnId) (ok : HandleResult → Prop) : Lane → Lane → Prop :=
  Relation.ReflTransGen (Move c ok)

section

variable {c : ConnId} {ok : HandleResult → Prop}

/-- A property kept by every move is kept by any number of them. -/
theorem Moves.keep {P : Lane → Prop} (h : ∀ L L', P L → Move c ok L L' → P L')
    {L L' : Lane} (hm : Moves c ok L L') (hp : P L) : P L' := by
  induction hm with
  | refl => exact hp
  | tail _ hstep ih => exact h _ _ ih hstep

theorem Moves.of_eq {L L' : Lane} (h : L' = L) : Moves c ok L L' := by
  rw [h]

/-- One move to a lane that is known by its fields. -/
theorem Moves.to {L L' L'' : Lane} (h : Move c ok L L') (heq : L'' = L') : Moves c ok L L'' := by
  rw [heq]
  exact .single h

/-- A closed connection's lane may drop whatever it held. -/
theorem Moves.gone {L L' : Lane} (x : Share) (hlive : L'.live = false)
    (hhist : L'.history = L.history) (hgr : L'.granted = [] ∨ L'.granted = L.granted)
    (hun : L'.unread = [] ∨ L'.unread = L.unread)
    (hround : L'.round = none ∨ L'.round = L.round) (hheld : L.held = x + L'.held) :
    Moves c ok L L' :=
  .trans (.single .close) (.single (.lose x rfl hlive hhist hgr hun hround hheld))

/-- A connection nothing refers to stays so. -/
theorem Blank.move {L L' : Lane} (hb : L.Blank) (h : Move c ok L L') : L'.Blank := by
  obtain ⟨hl, hh, hg, hu, hr, hx⟩ := hb
  have hne : ∀ {a x : Share}, a ≠ 0 → L.held = a + x → False := fun ha h =>
    ha (Share.eq_zero_of_add (h.symm.trans hx)).1
  cases h with
  | recv chunk hlive | raise hlive | push payload hlive | write n hlive => simp [hl] at hlive
  | packet p ps hun => simp [hu] at hun
  | submit p hgr => simp [hg] at hgr
  | start k p x h | result k o x h | answerSilent k r x h | answer k r x h | finish k x h
  | drop k o x _ h => exact (hne (Share.token_ne_zero _) h).elim
  | session R u h => simp [hr] at h
  | extraToken R h => simp [hr] at h
  | endRound R h => simp [hr] at h
  | wake x h => exact (hne Share.wake_ne_zero h).elim
  | release x h => exact (hne Share.fence_ne_zero h).elim
  | clear => exact ⟨hl, hh, hg, hu, hr, hx⟩
  | stop => exact ⟨hl, hh, hg, hu, hr, hx⟩
  | close => exact ⟨rfl, hh, hg, hu, hr, hx⟩
  | lose x _ hl' hh' hg' hu' hr' h =>
    exact ⟨hl', hh'.trans hh, hg'.elim id (·.trans hg), hu'.elim id (·.trans hu),
      hr'.elim id (·.trans hr), (Share.eq_zero_of_add (h.symm.trans hx)).2⟩

end

end Lane
end ChatServer.Net
