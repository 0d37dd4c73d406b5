import ChatServer.Net.EventBatch
import ChatServer.Net.LaneAccount
import ChatServer.Net.RemotePushes

/-!
# Peers that shut down their sending side

The server together with its peers: the bytes that have come in from each, whether
its `FIN` has, and the event of `epoll_wait` the I/O thread is working on. `recv`
gives out what has come in, in order, and the branch of `acceptLoop` for a client
event does its parts in order: `onReadable`, `onWritable`, then the check that
closes a hung-up peer nothing is left to send to. A hang-up is reported together
with, or after, the readability of what came before it.

* `Honest` — what is received comes from the peer, and a peer that has hung up has shut
  down;
* `TakenUp` — the schedules in which the results of the peer's requests have been taken
  up before a hang-up is reported;
* `hang_up_close_satisfied` — the check then closes a connection with all its requests
  answered;
* `hang_up_loses_answer` — a run in which the result comes later.
-/

namespace ChatServer.Net

open ChatServer.Codec ConnectionContext

/-! ## The server and its peers -/

/-- What has come in from a peer. -/
structure Peer where
  written : Bytes := []
  /-- and nothing follows -/
  shut : Bool := false
  deriving DecidableEq

/-- What `recv` may return when this much has been received before. -/
def Peer.gives (peer : Peer) (received : Bytes) : RecvResult → Bool
  | .data chunk => decide (chunk <+: peer.written.drop received.length)
  | .eof => peer.shut && decide (peer.written.length ≤ received.length)
  | .again => !peer.shut && decide (peer.written.length ≤ received.length)
  | .error => true

structure Peers where
  server : Server := {}
  peers : ConnId → Peer := fun _ => {}
  /-- the client event under way, with the bits not handled yet -/
  event : Option (ConnId × EventMask) := none

inductive PeerLabel
  | arrive (connId : ConnId) (bytes : Bytes)
  | shut (connId : ConnId)
  /-- the I/O thread turns to a client event -/
  | event (connId : ConnId) (mask : EventMask)
  /-- and is done with it -/
  | done
  | server (l : Label)
  deriving DecidableEq

namespace Peers

variable (h : Peers)

/-- The requests the peer has sent: the complete packets that are not empty. -/
def requests (c : ConnId) : List Bytes := (packetsOf (h.peers c).written).filter fun p => !p.isEmpty

/-- A hang-up is reported after the `FIN`, and with `EPOLLIN` unless everything has
been read. -/
def reports (c : ConnId) (mask : EventMask) : Bool :=
  !mask.hangUp || ((h.peers c).shut &&
    (mask.readable || decide ((h.peers c).written.length ≤ (h.server.history c).received.length)))

/-- The I/O thread is at the part of the client event the label is for. -/
def admits : Label → Bool
  | .readable c => h.event.any fun e => e.1 = c ∧ e.2.err = false ∧ e.2.readable = true
  | .writable c =>
    h.event.any fun e => e.1 = c ∧ e.2.err = false ∧ e.2.readable = false ∧ e.2.writable = true
  | .close c .peerError _ => h.event.any fun e => e.1 = c ∧ e.2.err = true
  | .close c .peerHup _ => h.event.any fun e => e = (c, { hangUp := true })
  | .close _ .timedOut _ => h.event.isNone
  | .close _ .serverStop _ => h.event.isNone
  | .accept _ => h.event.isNone
  | .workerResult => h.event.isNone
  | .io env =>
    match h.server.io with
    | .reading c => (h.peers c).gives (h.server.history c).received env.recv
    | _ => true
  | _ => true

/-- What is left of the client event. -/
def remaining : Label → Option (ConnId × EventMask)
  | .readable _ => h.event.map fun e => (e.1, { e.2 with readable := false })
  | .writable _ => h.event.map fun e => (e.1, { e.2 with writable := false })
  | .close .. => none
  | _ => h.event

/-- Nothing of the event is left to do: the connection is gone, or its bits are
handled and the hang-up check found something to send. -/
def handled (c : ConnId) (mask : EventMask) : Bool :=
  !h.server.registered c || (!mask.err && !mask.readable && !mask.writable &&
    (!mask.hangUp || !(h.server.contexts c).pendingSend.isEmpty))

/-- Update one peer. -/
def setPeer (c : ConnId) (peer : Peer) : Peers :=
  { h with peers := Function.update h.peers c peer }

def step : PeerLabel → Option Peers
  | .arrive c bytes =>
    if (h.peers c).shut then none
    else some (h.setPeer c { h.peers c with written := (h.peers c).written ++ bytes })
  | .shut c => some (h.setPeer c { h.peers c with shut := true })
  | .event c mask =>
    if h.server.io = .idle ∧ h.event = none ∧ h.server.registered c = true ∧
        h.reports c mask = true then
      some { h with event := some (c, mask) }
    else none
  | .done =>
    match h.event with
    | none => none
    | some (c, mask) =>
      if h.server.io = .idle ∧ h.handled c mask = true then some { h with event := none }
      else none
  | .server l =>
    if h.admits l then
      (h.server.step l).map fun s => { h with server := s, event := h.remaining l }
    else none

/-- Server and peers, from the start. -/
def lts : Base.Lts Peers PeerLabel where
  Init h := h = {}
  step := step

variable {h}

/-- What a step does, by label. -/
theorem step_cases {l : PeerLabel} {h' : Peers} (hstep : h.step l = some h') :
    (∃ c bytes, l = .arrive c bytes ∧ (h.peers c).shut = false ∧
      h' = h.setPeer c { h.peers c with written := (h.peers c).written ++ bytes }) ∨
    (∃ c, l = .shut c ∧ h' = h.setPeer c { h.peers c with shut := true }) ∨
    (∃ c mask, l = .event c mask ∧ h.server.io = .idle ∧ h.reports c mask = true ∧
      h' = { h with event := some (c, mask) }) ∨
    (l = .done ∧ h' = { h with event := none }) ∨
    ∃ sl s, l = .server sl ∧ h.admits sl = true ∧ h.server.step sl = some s ∧
      h' = { h with server := s, event := h.remaining sl } := by
  cases l with
  | arrive c bytes =>
    obtain ⟨hshut, hstep⟩ := Option.ite_none_left_eq_some.mp hstep
    exact .inl ⟨c, bytes, rfl, Bool.eq_false_iff.mpr hshut, (Option.some.inj hstep).symm⟩
  | shut c => exact .inr (.inl ⟨c, rfl, (Option.some.inj hstep).symm⟩)
  | event c mask =>
    obtain ⟨⟨hidle, -, -, hreports⟩, hstep⟩ := Option.ite_none_right_eq_some.mp hstep
    exact .inr (.inr (.inl ⟨c, mask, rfl, hidle, hreports, (Option.some.inj hstep).symm⟩))
  | done =>
    simp only [step] at hstep
    split at hstep
    · cases hstep
    · obtain ⟨-, hstep⟩ := Option.ite_none_right_eq_some.mp hstep
      exact .inr (.inr (.inr (.inl ⟨rfl, (Option.some.inj hstep).symm⟩)))
  | server sl =>
    obtain ⟨hadmits, hstep⟩ := Option.ite_none_right_eq_some.mp hstep
    obtain ⟨s, hs, hs'⟩ := Option.map_eq_some_iff.mp hstep
    exact .inr (.inr (.inr (.inr ⟨sl, s, rfl, hadmits, hs, hs'.symm⟩)))

/-- Whatever the peers do, the server runs as it does without them. -/
theorem server_reachable (hs : lts.Reachable h) : Server.lts.Reachable h.server := by
  induction hs with
  | init hi =>
    cases hi
    exact .init rfl
  | step _ _ hstep ih =>
    rcases step_cases hstep with ⟨c, bytes, -, -, rfl⟩ | ⟨c, -, rfl⟩ | ⟨c, mask, -, -, -, rfl⟩ |
      ⟨-, rfl⟩ | ⟨sl, s, -, -, hserver, rfl⟩
    · exact ih
    · exact ih
    · exact ih
    · exact ih
    · exact .step ih trivial hserver

end Peers

/-! ## What the server receives -/

namespace Server

variable {s s' : Server} {c d : ConnId} {env : Env} {l : Label}

/-- The bytes received, by connection. -/
def reception (s : Server) : ConnId → Bytes := fun c => (s.history c).received

theorem setHistory_reception {hist : History} (h : hist.received = (s.history d).received) :
    (s.setHistory d hist).reception = s.reception := by
  funext c
  by_cases hc : c = d
  · subst hc
    simp [reception, setHistory, h]
  · simp [reception, setHistory, hc]

theorem record_reception (e : Event) : (s.record d e).reception = s.reception :=
  setHistory_reception rfl

theorem closeClientFd_reception (b : Bool) : (s.closeClientFd d b).reception = s.reception := by
  unfold closeClientFd
  split
  · cases b <;> rfl
  · rfl

theorem submitRequestTask_reception {p : Bytes} {b : Bool}
    (h : s.submitRequestTask d p b = some s') : s'.reception = s.reception := by
  unfold submitRequestTask at h
  split at h
  · cases h
  · cases h
    exact setHistory_reception rfl

/-- A step that receives a chunk. -/
structure Receives (s : Server) (l : Label) (s' : Server) (d : ConnId) (chunk : Bytes) : Prop where
  position : s.io = .reading d
  label : ∃ env, l = .io env ∧ env.recv = .data chunk
  reception : s'.reception = Function.update s.reception d (s.reception d ++ chunk)

theorem ioStep_reception (h : s.ioStep env = some s') :
    s'.reception = s.reception ∨ ∃ d chunk, s.Receives (.io env) s' d chunk := by
  obtain ⟨t, io, hstep, rfl⟩ := ioStep_cases h
  -- only a `recv` that returns data changes what was received
  cases hstep with
  | @received d chunk hio hrecv =>
    refine .inr ⟨d, chunk, hio, ⟨env, rfl, hrecv⟩, funext fun c => ?_⟩
    by_cases hc : c = d
    · subst hc
      simp [reception, setHistory, setContext]
    · simp [reception, setHistory, setContext, hc]
  | wrote => exact .inl (setHistory_reception rfl)
  | readSubmitted _ hsub | nextSubmitted _ hsub =>
    have hrec := submitRequestTask_reception hsub
    exact .inl hrec
  | readError | oversized | readRefused | writeError | respondClosed | nextRefused =>
    exact .inl (closeClientFd_reception _)
  | remotePushed | responded | respondedDeferred | sessionBound | sessionUnbound | pushed =>
    exact .inl (record_reception _)
  | remoteFailed | respondFailed | pushFailed =>
    exact .inl ((closeClientFd_reception _).trans (record_reception _))
  | _ => exact .inl rfl

theorem workerStep_reception {i : Nat} {o : Option HandleResult} (h : s.workerStep i o = some s') :
    s'.reception = s.reception := by
  unfold workerStep enqueueResponseTask at h
  repeat' split at h
  all_goals cases h
  all_goals first
    | rfl
    | exact record_reception _

theorem takeTask_reception (h : s.takeTask = some s') : s'.reception = s.reception := by
  unfold takeTask at h
  repeat' split at h
  all_goals cases h
  all_goals first
    | rfl
    | exact record_reception _

/-- Only `recv` receives anything. -/
theorem step_reception (h : s.step l = some s') :
    s'.reception = s.reception ∨ ∃ d chunk, s.Receives l s' d chunk := by
  cases l with
  | io env => exact ioStep_reception h
  | take => exact .inl (takeTask_reception h)
  | worker i o => exact .inl (workerStep_reception h)
  | close d reason b =>
    simp only [step, eventStep] at h
    repeat' split at h
    all_goals cases h
    exact .inl (closeClientFd_reception b)
  | _ =>
    simp only [step, eventStep] at h
    repeat' split at h
    all_goals cases h
    all_goals exact .inl rfl

/-- Every run has a handler whose results are unrestricted. -/
theorem reach_handlerOk (hs : lts.Reachable s) : lts.Reach (HandlerOk fun _ _ => True) s :=
  hs.mono fun _ _ _ _ _ _ _ _ => trivial

/-- The account holds for every connection. -/
theorem accounted (hs : lts.Reachable s) (c : ConnId) : (s.lane c).Accounted := by
  refine lane_invariant (P := fun _ L => L.Accounted) ?_ ?_ ?_ (reach_handlerOk hs) c
  · intro _ L hb
    exact Lane.accounted_of_dead hb.live
  · intro _ st peerIp _ _
    rfl
  · intro _ L L' ha hm
    exact ha.move hm

end Server

/-! ## Honest peers -/

namespace Peers

variable {h : Peers} {c : ConnId}

/-- `recv` gives out what came in, and a hang-up is that of a peer that has shut down. -/
structure Honest (h : Peers) : Prop where
  sound : h.server.Sound
  received : ∀ c, h.server.reception c <+: (h.peers c).written
  shut : ∀ c mask, h.event = some (c, mask) → mask.hangUp = true → (h.peers c).shut = true

theorem Honest.arrive (hh : h.Honest) (hshut : (h.peers c).shut = false) (bytes : Bytes) :
    (h.setPeer c { h.peers c with written := (h.peers c).written ++ bytes }).Honest := by
  refine ⟨hh.sound, ?_, ?_⟩
  · intro d
    by_cases hd : d = c
    · subst hd
      simpa [setPeer] using (hh.received d).trans (List.prefix_append _ bytes)
    · simpa [setPeer, hd] using hh.received d
  · intro d mask hevent hhup
    have hd : d ≠ c := by
      rintro rfl
      exact absurd (hh.shut d mask hevent hhup) (by simp [hshut])
    simpa [setPeer, hd] using hh.shut d mask hevent hhup

theorem Honest.shutDown (hh : h.Honest) :
    (h.setPeer c { h.peers c with shut := true }).Honest := by
  refine ⟨hh.sound, fun d => ?_, fun d mask hevent hhup => ?_⟩ <;> by_cases hd : d = c
  · subst hd
    simpa [setPeer] using hh.received d
  · simpa [setPeer, hd] using hh.received d
  · subst hd
    simp [setPeer]
  · simpa [setPeer, hd] using hh.shut d mask hevent hhup

variable {mask : EventMask} {l : Label} {s : Server}

theorem Honest.turnTo (hh : h.Honest) (hreports : h.reports c mask = true) :
    Honest { h with event := some (c, mask) } := by
  refine ⟨hh.sound, hh.received, ?_⟩
  intro d m hevent hhup
  cases hevent
  simp only [reports, hhup, Bool.not_true, Bool.false_or, Bool.and_eq_true] at hreports
  exact hreports.1

/-- What is left of an event comes from the event. -/
theorem of_remaining (hrem : h.remaining l = some (c, mask)) :
    ∃ mask', h.event = some (c, mask') ∧ mask'.hangUp = mask.hangUp := by
  cases l with
  | readable d | writable d =>
    obtain ⟨⟨d', mask'⟩, hevent, hmask⟩ := Option.map_eq_some_iff.mp hrem
    cases hmask
    exact ⟨mask', hevent, rfl⟩
  | close => cases hrem
  | _ => exact ⟨mask, hrem, rfl⟩

/-- Connections are accepted between client events. -/
theorem admits_ne_accept (hadmits : h.admits l = true) (hevent : h.event = some (c, mask))
    (peerIp : Bytes) : l ≠ .accept peerIp := by
  rintro rfl
  rw [admits, hevent] at hadmits
  cases hadmits

/-- A chunk comes from what the peer sent next. -/
theorem Honest.received_step (hh : h.Honest) (hadmits : h.admits l = true)
    (hstep : h.server.step l = some s) : s.reception c <+: (h.peers c).written := by
  rcases Server.step_reception hstep with hsame | ⟨d, chunk, hio, ⟨env, rfl, hrecv⟩, hrec⟩
  · rw [hsame]
    exact hh.received c
  · rw [hrec]
    by_cases hc : c = d
    · subst hc
      have hchunk : chunk <+: (h.peers c).written.drop (h.server.reception c).length := by
        simpa [admits, hio, hrecv, Peer.gives, Server.reception] using hadmits
      obtain ⟨rest, hrest⟩ := hh.received c
      rw [← hrest, List.drop_left] at hchunk
      rw [Function.update_self, ← hrest]
      exact (List.prefix_append_right_inj _).mpr hchunk
    · rw [Function.update_of_ne hc]
      exact hh.received c

theorem Honest.serverStep (hh : h.Honest) (hadmits : h.admits l = true)
    (hstep : h.server.step l = some s) : Honest { h with server := s, event := h.remaining l } := by
  refine ⟨Server.sound_inductive.step _ _ _ hh.sound trivial hstep,
    fun c => hh.received_step hadmits hstep, fun c mask hrem hhup => ?_⟩
  obtain ⟨mask', hevent, hsame⟩ := of_remaining hrem
  exact hh.shut c mask' hevent (hsame.trans hhup)

theorem honest_inductive : lts.Inductive (fun _ _ => True) Honest where
  init h hi := by
    cases hi
    exact ⟨Server.sound_inductive.init _ rfl, fun c => List.prefix_refl _,
      fun c mask hevent => nomatch hevent⟩
  step h l h' hh _ hstep := by
    rcases step_cases hstep with ⟨c, bytes, -, hshut, rfl⟩ | ⟨c, -, rfl⟩ |
      ⟨c, mask, -, -, hreports, rfl⟩ | ⟨-, rfl⟩ | ⟨l, s, -, hadmits, hserver, rfl⟩
    · exact hh.arrive hshut bytes
    · exact hh.shutDown
    · exact hh.turnTo hreports
    · exact ⟨hh.sound, hh.received, fun c mask hevent => nomatch hevent⟩
    · exact hh.serverStep hadmits hserver

end Peers

/-! ## Requests that are done with -/

/-- A push is no answer. -/
theorem Answered.push {requests : List Bytes} {trace : List Event} (h : Answered requests trace)
    (payload : Bytes) : Answered requests (trace ++ [.push payload]) := by
  obtain ⟨hhandled, hreturned, hresults, happended⟩ := h
  refine ⟨?_, ?_, ?_, ?_⟩ <;> rw [List.filterMap_append]
  · exact (List.append_nil _).symm ▸ hhandled
  · exact (List.append_nil _).symm ▸ hreturned
  · exact (List.append_nil _).symm ▸ hresults
  · rw [List.filterMap_append]
    exact (List.append_nil (trace.filterMap Event.ended)).symm ▸
      (List.append_nil (trace.filterMap Event.answer)).symm ▸ happended

namespace Lane

variable {c : ConnId} {ok : HandleResult → Prop} {L L' : Lane} {requests : List Bytes}

/-- The requests, all that were framed, have been answered, and nothing acts for one of
them any more. -/
structure Settled (requests : List Bytes) (L : Lane) : Prop where
  granted : L.granted = []
  unread : L.unread = []
  round : L.round = none
  tokens : L.held.1 = 0
  notInFlight : L.context.requestInFlight = false
  notQueued : L.context.pendingRequests = []
  framed : L.history.framed = requests
  answered : Answered requests L.history.trace

/-- They are, as long as nothing else is framed. -/
def Rests (requests : List Bytes) (L : Lane) : Prop :=
  L.live = true → L.history.framed <+: requests → L.Settled requests

/-- The rest of the peer's requests stays at rest: a chunk has no packet in it, and no
item is left to move one. -/
theorem Settled.move (hs : L.Settled requests) (h : Move c ok L L') (hlive : L'.live = true)
    (hframed : L'.history.framed <+: requests) : L'.Settled requests := by
  obtain ⟨hgr, hun, hround, htokens, hflag, hqueue, hall, hanswered⟩ := id hs
  have hnone : ∀ {t : Token} {x : Share}, L.held = Share.token t + x → False := by
    intro t x hx
    rw [tokens_of_held hx] at htokens
    exact Multiset.cons_ne_zero htokens
  cases h with
  | recv chunk =>
    -- packets of the chunk would be beyond the requests
    rw [hall] at hframed
    have hnew := List.append_right_eq_self.mp (hframed.eq_of_length_le (by simp))
    exact ⟨hgr, hnew, hround, htokens, hflag, hqueue, by rw [hall, hnew, List.append_nil], hanswered⟩
  | packet p ps h => exact absurd (hun.symm.trans h) (List.cons_ne_nil p ps).symm
  | submit p h => exact absurd (hgr.symm.trans h) (List.cons_ne_nil p []).symm
  | start k p x h | result k o x h | answerSilent k r x h | answer k r x h | finish k x h
  | drop k o x _ h => exact (hnone h).elim
  | session R u h | extraToken R h | endRound R h =>
    exact absurd (hround.symm.trans h) (Option.some_ne_none R).symm
  | wake x hx =>
    -- the queue is empty, so nothing is granted
    have hpop : L.context.popNextRequestIfIdle = (none, L.context) := by
      rcases popNextRequestIfIdle_cases L.context with ⟨-, h⟩ | ⟨p, ps, hq, -⟩
      · exact h
      · exact absurd (hqueue.symm.trans hq) (List.cons_ne_nil p ps).symm
    rw [hx, Prod.fst_add, Share.wake_tokens, zero_add] at htokens
    simp only [popped, hpop]
    exact ⟨rfl, hun, hround, htokens, hflag, hqueue, hall, hanswered⟩
  | raise =>
    exact ⟨hgr, hun, hround, (zero_add _).trans htokens, hflag, hqueue, hall, hanswered⟩
  | release x hx =>
    rw [hx, Prod.fst_add, Share.fence_tokens, zero_add] at htokens
    exact ⟨hgr, hun, hround, (zero_add _).trans htokens, hflag, hqueue, hall, hanswered⟩
  | push payload =>
    exact ⟨hgr, hun, hround, htokens, hflag, hqueue, hall, hanswered.push payload⟩
  | write n | stop => exact ⟨hgr, hun, hround, htokens, hflag, hqueue, hall, hanswered⟩
  | clear => exact ⟨hgr, hun, hround, htokens, rfl, rfl, hall, hanswered⟩
  | close => cases hlive
  | lose x _ hdead => exact absurd hlive (Bool.eq_false_iff.mp hdead)

/-- No move takes a packet back, or opens a connection. -/
theorem Move.framed_prefix (h : Move c ok L L') (hlive : L'.live = true) :
    L.live = true ∧ L.history.framed <+: L'.history.framed := by
  cases h with
  | recv chunk hl => exact ⟨hl, List.prefix_append _ _⟩
  | close => cases hlive
  | lose x _ hdead => exact absurd hlive (Bool.eq_false_iff.mp hdead)
  | _ => exact ⟨hlive, List.prefix_refl _⟩

theorem Rests.move (hr : L.Rests requests) (h : Move c ok L L') : L'.Rests requests := by
  intro hlive hframed
  obtain ⟨hl, hinitial⟩ := h.framed_prefix hlive
  exact (hr hl (hinitial.trans hframed)).move h hlive hframed

end Lane

namespace Server

variable {s : Server} {c : ConnId}

/-- Between two events of a server that is not stopping, the requests submitted are done
with if no item of theirs is left. -/
theorem rests_of_idle (hs : lts.Reachable s) (hrun : s.stopping = false) (hio : s.io = .idle)
    (hheld : (s.held c).1 = 0) : (s.lane c).Rests (s.history c).submitted := by
  intro hreg (hframed : (s.lane c).history.framed <+: (s.lane c).history.submitted)
  obtain ⟨-, -, hordered, hserved⟩ := lane_ordinary (reach_handlerOk hs) c
  have hgr : (s.lane c).granted = [] := by simp only [lane, hio, Io.granted]
  have hun : (s.lane c).unread = [] := by simp only [lane, hio, Io.unread]
  have hround : (s.lane c).round = none := by simp only [lane, hio, Io.roundOf]
  have horder := hordered.framed hreg hrun
  rw [hgr, hun, List.append_nil, List.append_nil] at horder
  -- what was framed has been submitted, so nothing is queued
  have hqueue : (s.contexts c).pendingRequests = [] := by
    rw [horder] at hframed
    exact List.append_right_eq_self.mp (hframed.eq_of_length_le (by simp))
  -- a set flag has a token or a granted request behind it
  have hflag : (s.contexts c).requestInFlight = false := by
    by_contra hset
    rcases hserved.flag hreg hrun (Bool.eq_true_of_not_eq_false hset) with h | h
    · exact h hheld
    · exact h hgr
  refine ⟨hgr, hun, hround, hheld, hflag, hqueue, ?_, ?_⟩
  · rw [horder, show (s.lane c).context.pendingRequests = [] from hqueue, List.append_nil]
    rfl
  · have hbalanced := accounted hs c hreg hrun
    rw [show (s.lane c).held.1 = 0 from hheld] at hbalanced
    exact hbalanced.all_answered

end Server

/-! ## Answers before the close -/

namespace Peers

variable {h : Peers} {c : ConnId}

/-- The connection is closed with all its requests answered: none is in flight or
queued, their responses have been appended, and what was appended has been sent. -/
structure Satisfied (requests : List Bytes) (s : Server) (c : ConnId) : Prop where
  notInFlight : (s.contexts c).requestInFlight = false
  notQueued : (s.contexts c).pendingRequests = []
  answered : Answered requests (s.history c).trace
  sent : (s.history c).sent = (s.history c).trace.flatMap Event.output

/-- A hang-up of the connection is reported only after the I/O thread of a server that
is not stopping has taken up the results of all the peer's requests: each has been
submitted, and nothing of it is with the workers or on its way back. -/
def TakenUp (c : ConnId) (h : Peers) : PeerLabel → Prop
  | .event d mask => d = c → mask.hangUp = true → h.server.stopping = false ∧
      (h.server.history c).submitted = h.requests c ∧ (h.server.held c).1 = 0
  | _ => True

instance (c : ConnId) (h : Peers) (l : PeerLabel) : Decidable (h.TakenUp c l) :=
  match l with
  | .event _ _ => inferInstanceAs (Decidable (_ → _ → _))
  | .arrive _ _ | .shut _ | .done | .server _ => isTrue trivial

/-- While the hang-up event is under way, the peer's requests are done with. -/
def AtRest (c : ConnId) (h : Peers) : Prop :=
  ∀ mask, h.event = some (c, mask) → mask.hangUp = true →
    (h.server.lane c).Rests (h.requests c)

theorem AtRest.serverStep (hrest : h.AtRest c) (hh : h.Honest) {l : Label} {s : Server}
    (hadmits : h.admits l = true) (hstep : h.server.step l = some s) :
    AtRest c { h with server := s, event := h.remaining l } := by
  intro mask hrem hhup
  obtain ⟨mask', hevent, hsame⟩ := of_remaining hrem
  have hany : Server.HandlerOk (fun _ _ => True) h.server l := fun _ _ _ _ _ => trivial
  have hmoves := Server.lane_step (c := c) hh.sound hany hstep
    (.inr (admits_ne_accept hadmits hevent))
  exact hmoves.keep (fun _ _ hr => hr.move) (hrest mask' hevent (hsame.trans hhup))

theorem atRest_of_reach (hs : lts.Reach (TakenUp c) h) : h.AtRest c := by
  induction hs with
  | init hi =>
    cases hi
    exact fun mask hevent => nomatch hevent
  | @step h l h' hreach htaken hstep ih =>
    have hh : h.Honest := honest_inductive.invariant hreach.reachable
    -- a peer that has hung up sends nothing more
    rcases step_cases hstep with ⟨d, bytes, -, hshut, rfl⟩ | ⟨d, -, rfl⟩ |
      ⟨d, mask, rfl, hidle, -, rfl⟩ | ⟨-, rfl⟩ | ⟨sl, s, -, hadmits, hserver, rfl⟩
    · intro mask hevent hhup
      have hd : c ≠ d := by
        rintro rfl
        exact absurd (hh.shut c mask hevent hhup) (by simp [hshut])
      simpa [requests, setPeer, hd] using ih mask hevent hhup
    · intro mask hevent hhup
      have hrest := ih mask hevent hhup
      by_cases hd : c = d
      · subst hd
        simpa [requests, setPeer] using hrest
      · simpa [requests, setPeer, hd] using hrest
    · intro mask' hevent hhup
      obtain ⟨rfl, rfl⟩ := Prod.mk.inj (Option.some.inj hevent)
      obtain ⟨hrun, hsubmitted, hheld⟩ := htaken rfl hhup
      show (h.server.lane d).Rests (h.requests d)
      rw [← hsubmitted]
      exact Server.rests_of_idle (server_reachable hreach.reachable) hrun hidle hheld
    · exact fun mask hevent => nomatch hevent
    · exact ih.serverStep hh hadmits hserver

/-- What the hang-up check has found when it closes a connection. -/
theorem of_hang_up {b : Bool} {h' : Peers}
    (hstep : h.step (.server (.close c .peerHup b)) = some h') :
    h.event = some (c, { hangUp := true }) ∧ h.server.registered c = true ∧
      (h.server.contexts c).pendingSend = [] := by
  obtain ⟨hadmits, hstep⟩ := Option.ite_none_right_eq_some.mp hstep
  obtain ⟨s, hs, -⟩ := Option.map_eq_some_iff.mp hstep
  obtain ⟨-, hs⟩ := Option.ite_none_right_eq_some.mp hs
  obtain ⟨hmay, -⟩ := Option.ite_none_right_eq_some.mp hs
  simp only [Server.mayClose, Bool.and_eq_true, List.isEmpty_iff] at hmay
  refine ⟨?_, hmay⟩
  cases hevent : h.event with
  | none => simp [admits, hevent] at hadmits
  | some e =>
    obtain rfl : e = (c, { hangUp := true }) := by simpa [admits, hevent] using hadmits
    rfl

/-- In every run in which hang-ups are reported after the results have been taken up,
the hang-up check closes the connection with all the requests of the peer answered. -/
theorem hang_up_close_satisfied (hs : lts.Reach (TakenUp c) h) {b : Bool} {h' : Peers}
    (hclose : h.step (.server (.close c .peerHup b)) = some h') :
    Satisfied (h.requests c) h.server c := by
  obtain ⟨hevent, hreg, hsend⟩ := of_hang_up hclose
  obtain ⟨hframed, hbuffered, -⟩ :=
    Server.lane_ordinary (Server.reach_handlerOk (server_reachable hs.reachable)) c
  -- what has been framed is the beginning of what the peer sent
  have hframed : (h.server.lane c).history.framed <+: h.requests c := by
    obtain ⟨rest, hrest⟩ := (honest_inductive.invariant hs.reachable).received c
    rw [hframed.framed hreg, requests, ← hrest]
    exact (packetsOf_initial _ rest).filter _
  have hsettled := atRest_of_reach hs _ hevent rfl hreg hframed
  refine ⟨hsettled.notInFlight, hsettled.notQueued, hsettled.answered, ?_⟩
  -- the send buffer is empty
  have hsent := hbuffered hreg
  simp only [Server.lane, hsend, List.append_nil] at hsent
  exact hsent

/-- A peer sends one request and shuts down; the request is read and submitted. -/
private def submitted : List PeerLabel :=
  [.server (.accept []), .arrive 1 [97, 10], .shut 1,
    .event 1 { readable := true, hangUp := true }, .server (.readable 1),
    .server (.io { recv := .data [97, 10] }), .server (.io {}), .server (.io {}),
    .server (.io {}), .server (.io { recv := .eof })]

/-- The hang-up check, and then the worker. -/
def closedFirst : List PeerLabel :=
  [.server (.close 1 .peerHup true), .server .take,
    .server (.worker 0 (some { response := [114] })), .server (.worker 0 none)]

/-- The hang-up check comes before the worker is done and closes the connection; the
response is never appended. -/
theorem hang_up_loses_answer :
    ∃ h, lts.Reachable h ∧ h.server.stopping = false ∧ h.requests 1 = [[97]] ∧
      (h.server.contexts 1).requestInFlight = true ∧
      ∃ t, lts.run h closedFirst = some t ∧ t.server.registered 1 = false ∧
        (t.server.history 1).trace =
          [.handleBegin [97], .handleEnd (some { response := [114] })] ∧
        t.server.workers = [] ∧ t.server.completedTasks = [] := by
  obtain ⟨h, hs, htest⟩ := Base.Lts.exists_reach_of_run (M := lts) (s := {})
    (fun h => h.server.stopping = false ∧ h.requests 1 = [[97]] ∧
      (h.server.contexts 1).requestInFlight = true ∧
      (lts.run h closedFirst).any (fun t => t.server.registered 1 = false ∧
        (t.server.history 1).trace =
          [.handleBegin [97], .handleEnd (some { response := [114] })] ∧
        t.server.workers = [] ∧ t.server.completedTasks = []) = true)
    submitted rfl Base.Lts.runOk_true (by decide +kernel)
  obtain ⟨hrun, hrequests, hflag, hafter⟩ := of_decide_eq_true htest
  cases ht : lts.run h closedFirst with
  | none =>
    rw [ht] at hafter
    cases hafter
  | some t =>
    rw [ht] at hafter
    exact ⟨h, hs, hrun, hrequests, hflag, t, ht, of_decide_eq_true hafter⟩

/-- The request is answered, and its response sent, before the hang-up check. -/
private def answered : List PeerLabel :=
  [.server (.accept []), .arrive 1 [97, 10], .event 1 { readable := true }, .server (.readable 1),
    .server (.io { recv := .data [97, 10] }), .server (.io {}), .server (.io {}),
    .server (.io {}), .server (.io {}), .done, .shut 1,
    .server .take, .server (.worker 0 (some { response := [114] })), .server (.worker 0 none),
    .server (.worker 0 none), .server (.worker 0 none),
    .server .workerResult, .server (.io {}), .server (.io {}), .server (.io {}), .server (.io {}),
    .server (.io {}), .server (.io {}), .server (.io {}), .server (.io {}), .server (.io {}),
    .server (.io {}),
    .event 1 { readable := true, writable := true, hangUp := true }, .server (.readable 1),
    .server (.io { recv := .eof }), .server (.writable 1), .server (.io { send := .sent 2 }),
    .server (.io {})]

theorem hang_up_close_answered :
    ∃ h h' : Peers, h.step (.server (.close 1 .peerHup true)) = some h' ∧ h.requests 1 = [[97]] ∧
      Satisfied (h.requests 1) h.server 1 := by
  have hok : lts.RunOk (TakenUp 1) {} answered := by decide +kernel
  obtain ⟨h, hs, htest⟩ := Base.Lts.exists_reach_of_run (M := lts) (s := {})
    (fun h => h.requests 1 = [[97]] ∧ (h.step (.server (.close 1 .peerHup true))).isSome = true)
    answered rfl hok (by decide +kernel)
  obtain ⟨hrequests, hclose⟩ := of_decide_eq_true htest
  obtain ⟨h', hclose⟩ := Option.isSome_iff_exists.mp hclose
  exact ⟨h, h', hclose, hrequests, hang_up_close_satisfied hs hclose⟩

end Peers

end ChatServer.Net
