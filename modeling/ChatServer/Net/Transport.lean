import ChatServer.Net.Guarantees

/-!
# From the send buffer to the peer

A connection's way out: payloads are encoded and appended to the send buffer,
`onWritable` hands the buffer to `send` in portions, and the peer feeds what it
receives to its own `PacketCodec`. `send` may take any part of what it is given or
nothing at all, and the peer may receive the bytes in any portions.

* `Outbound.lts` — appends interleaved with the rounds of `onWritable`;
* `transport_intact` — no byte is lost, repeated or out of place, and the peer has
  a beginning of the payloads;
* `peer_sees_loop` — in the server, from the peer's packets to the answers it decodes.
-/

namespace ChatServer.Net

open Base ChatServer.Codec ConnectionContext

/-- A connection's context, the payloads appended to it and the bytes `send` has
taken from it. -/
structure Outbound where
  context : ConnectionContext := {}
  payloads : List Bytes := []
  sent : Bytes := []

namespace Outbound

inductive Label where
  | append (payload : Bytes)
  /-- a round of `onWritable`, with the outcome of `send` -/
  | write (result : SendResult)
  deriving DecidableEq, Repr

/-- One round of `onWritable`: `send` gets the whole buffer and takes some of it. A
connection that fails is closed, and that is the end of it. -/
def write (o : Outbound) : SendResult → Option Outbound
  | .again => some o
  | .sent n =>
    if 0 < n ∧ n ≤ o.context.pendingSend.length then
      some
        { o with
          context := o.context.consumePendingSend n
          sent := o.sent ++ o.context.pendingSend.take n }
    else none
  | .closed => none
  | .error => none

def step (o : Outbound) : Label → Option Outbound
  | .append payload =>
    some
      { o with
        context := o.context.appendPendingSend (encode payload)
        payloads := o.payloads ++ [payload] }
  -- the loop ends when the buffer is empty
  | .write result => if o.context.pendingSend.isEmpty then some o else o.write result

/-- A fresh connection. -/
def lts : Lts Outbound Label where
  Init o := o.payloads = [] ∧ o.sent = [] ∧ o.context.pendingSend = []
  step := step

/-- What was taken and what is still to be taken are the encoded payloads. -/
def Conveys (o : Outbound) : Prop :=
  o.sent ++ o.context.pendingSend = (o.payloads.map encode).flatten

theorem write_conveys {o o' : Outbound} {result : SendResult} (ho : o.Conveys)
    (h : o.write result = some o') : o'.Conveys := by
  cases result with
  | again =>
    obtain rfl := Option.some.inj h
    exact ho
  | closed => cases h
  | error => cases h
  | sent n =>
    simp only [write] at h
    split at h
    · obtain rfl := Option.some.inj h
      unfold Conveys consumePendingSend
      rw [List.append_assoc, List.take_append_drop]
      exact ho
    · cases h

theorem conveys_inductive : lts.Inductive (fun _ _ => True) Conveys where
  init o h := by
    obtain ⟨hpayloads, hsent, hpending⟩ := h
    unfold Conveys
    rw [hpayloads, hsent, hpending]
    rfl
  step o l o' ho _ h := by
    cases l with
    | append payload =>
      obtain rfl := Option.some.inj h
      unfold Conveys appendPendingSend at *
      rw [← List.append_assoc, ho, List.map_append, List.flatten_append]
      simp
    | write result =>
      simp only [lts, step] at h
      split at h
      · obtain rfl := Option.some.inj h
        exact ho
      · exact write_conveys ho h

end Outbound

/-- However appends and rounds of `onWritable` follow one another and however much
`send` takes in each round: the bytes taken and the buffer are the encoded payloads,
and a peer that has received some of the bytes, in whatever chunks, has decoded the
first of the payloads, all of them if nothing is left in the buffer or on the way. -/
theorem transport_intact {o : Outbound} (ho : Outbound.lts.Reachable o)
    (hclean : ∀ p ∈ o.payloads, Frameable p) :
    o.sent ++ o.context.pendingSend = (o.payloads.map encode).flatten ∧
      ∀ chunks : List Bytes, chunks.flatten <+: o.sent →
        (({} : PacketCodec).feedAll chunks).ok = true ∧
          (({} : PacketCodec).feedAll chunks).packets <+: o.payloads ∧
          (o.context.pendingSend = [] → chunks.flatten = o.sent →
            (({} : PacketCodec).feedAll chunks).packets = o.payloads) := by
  have hconveys : o.Conveys := Outbound.conveys_inductive.invariant ho
  refine ⟨hconveys, fun chunks hfed => ?_⟩
  have hprefix : chunks.flatten <+: (o.payloads.map encode).flatten := by
    rw [← hconveys]
    exact hfed.trans (List.prefix_append _ _)
  obtain ⟨hok, hpackets, hall⟩ := peer_decodes hclean hprefix
  refine ⟨hok, hpackets, fun hempty hreceived => hall ?_⟩
  rw [← hconveys, hempty, List.append_nil, hreceived]

/-- Two payloads; `send` takes three bytes before the second is appended, and the peer
receives two of them first. -/
theorem transport_intact_cut :
    (({} : PacketCodec).feedAll [[104, 105], [10, 104], [111, 10]]).packets =
      [[104, 105], [104, 111]] := by
  obtain ⟨o, ho, htest⟩ := Lts.exists_reach_of_run (M := Outbound.lts) (s := {})
    (fun o => o.payloads = [[104, 105], [104, 111]] ∧ o.sent = [104, 105, 10, 104, 111, 10] ∧
      o.context.pendingSend = [])
    [.append [104, 105], .write (.sent 3), .write .again, .append [104, 111], .write (.sent 1),
      .write .again, .write (.sent 2), .write (.sent 1)]
    ⟨rfl, rfl, rfl⟩ Lts.runOk_true (by decide +kernel)
  obtain ⟨hpayloads, hsent, hempty⟩ := of_decide_eq_true htest
  have hclean : ∀ p ∈ o.payloads, Frameable p := by
    intro p hp
    simp only [hpayloads, List.mem_cons, List.not_mem_nil, or_false] at hp
    rcases hp with rfl | rfl
    · exact ⟨by decide, by decide, by decide⟩
    · exact ⟨by decide, by decide, by decide⟩
  have hreceived : [[104, 105], [10, 104], [111, 10]].flatten = o.sent := by
    rw [hsent]
    rfl
  rw [← hpayloads]
  exact ((transport_intact ho hclean).2 _ (hreceived ▸ List.prefix_refl _)).2.2 hempty hreceived

/-! ## In the server -/

/-- The payload an event puts into the send buffer. -/
def Event.payload : Event → Option Bytes
  | .response payload => some payload
  | .push payload => some payload
  | _ => none

theorem flatMap_output (trace : List Event) :
    trace.flatMap Event.output = ((trace.filterMap Event.payload).map encode).flatten := by
  induction trace with
  | nil => rfl
  | cons e trace ih =>
    rw [List.flatMap_cons, ih]
    cases e <;> rfl

/-- From end to end, for results whose end is not deferred twice: the packets received
are submitted, granted, queued or unread, in that order, and what the peer has decoded
are the answers of the sequential loop over them, with pushes in between, as they stand
at the beginning of the connection's trace. -/
theorem peer_sees_loop {s : Server} {c : ConnId}
    (hs : Server.lts.Reach (Server.HandlerOk fun c r => ¬ r.DefersTwice c) s)
    (hreg : s.registered c = true)
    (hclean : ∀ p ∈ (s.history c).trace.filterMap Event.payload, Frameable p) (chunks : List Bytes)
    (hfed : chunks.flatten <+: (s.history c).sent) :
    (s.stopping = false → (packetsOf (s.history c).received).filter (fun p => !p.isEmpty) =
      (s.history c).submitted ++ s.io.granted c ++ (s.contexts c).pendingRequests ++
        s.io.unread c) ∧
    (({} : PacketCodec).feedAll chunks).ok = true ∧
    ∃ (events : List Event) (outcomes : List (Option HandleResult)),
      events <+: (s.history c).trace ∧
      (({} : PacketCodec).feedAll chunks).packets = events.filterMap Event.payload ∧
      events.filter Event.own <+: sequential
        ((packetsOf (s.history c).received).filter fun p => !p.isEmpty) outcomes := by
  obtain ⟨hframed, hbuffered, hordered, -⟩ := Server.lane_ordinary hs c
  have hpackets := hframed.framed hreg
  have hsent : (s.history c).sent ++ (s.contexts c).pendingSend =
      (s.history c).trace.flatMap Event.output := hbuffered hreg
  -- on the way out: the peer has payloads from the beginning of the trace
  rw [flatMap_output] at hsent
  obtain ⟨hok, hdecoded, -⟩ := peer_decodes hclean (hfed.trans ⟨_, hsent⟩)
  obtain ⟨events, hevents, hpayloads⟩ := List.prefix_filterMap_iff.mp hdecoded
  -- on the way in: the loop goes on with the packets that are not submitted yet
  obtain ⟨rest, hrest⟩ := hordered.submitted hreg
  have htraced := (Server.lane_serial (fun _ _ h => h) hs c).2 hreg
  obtain ⟨outcomes, -, hloop⟩ := htraced.sequential rest
  rw [hrest, hpackets] at hloop
  refine ⟨fun hrun => ?_, hok, events, outcomes, hevents, hpayloads, (hevents.filter _).trans hloop⟩
  exact hpackets.symm.trans (hordered.framed hreg hrun)

/-- The theorem after the answer to the first of three packets has been sent. -/
theorem peer_sees_loop_answered :
    ∃ (s : Server) (events : List Event) (outcomes : List (Option HandleResult)),
      (s.history 1).sent = [114, 10] ∧ events <+: (s.history 1).trace ∧
      (({} : PacketCodec).feedAll [[114], [10]]).packets = events.filterMap Event.payload ∧
      events.filter Event.own <+: sequential [[97], [98], [99]] outcomes := by
  have hok : Server.lts.RunOk (Server.HandlerOk fun c r => ¬ r.DefersTwice c) {}
      (Server.handleFirst Server.plainResult ++ List.replicate 8 (.io {}) ++
        [.writable 1, .io { send := .sent 2 }]) := by
    refine Server.runOk_of_results fun i r hmem c => ?_
    have hr : i = 0 ∧ r = Server.plainResult := by simpa [Server.handleFirst] using hmem
    simp [hr.2, HandleResult.DefersTwice, Server.plainResult]
  obtain ⟨s, hs, htest⟩ := Lts.exists_reach_of_run (fun s : Server => s.registered 1 = true ∧
    (s.history 1).trace.filterMap Event.payload = [[114]] ∧ (s.history 1).sent = [114, 10] ∧
    (packetsOf (s.history 1).received).filter (fun p => !p.isEmpty) = [[97], [98], [99]]) _
    rfl hok (by decide +kernel)
  obtain ⟨hreg, hpayloads, hsent, hreceived⟩ := of_decide_eq_true htest
  have hclean : ∀ p ∈ (s.history 1).trace.filterMap Event.payload, Frameable p := by
    rw [hpayloads, List.forall_mem_singleton]
    exact ⟨by decide, by decide, by decide⟩
  obtain ⟨-, -, events, outcomes, hloop⟩ :=
    peer_sees_loop hs hreg hclean [[114], [10]] (hsent ▸ List.prefix_refl _)
  rw [hreceived] at hloop
  exact ⟨s, events, outcomes, hsent, hloop⟩

end ChatServer.Net
