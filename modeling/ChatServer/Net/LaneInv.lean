import ChatServer.Net.Lane

/-!
# Invariants of a lane

What every move keeps for a connection that is still registered.

* `Framed`, `Buffered` — the packets are those of the received stream, and the
  bytes sent and still to send are the encoded responses and pushes;
* `Ordered` — requests are submitted in the order their packets were framed;
* `Served` — a waiting request has something that will look at the queue;
* `Serial` — the in-flight flag counts the tokens. This one needs handler
  results whose end is not deferred twice.
-/

namespace ChatServer.Net

open ChatServer.Codec ConnectionContext

/-- The bytes an event puts into the send buffer. -/
def Event.output : Event → Bytes
  | .response p => encode p
  | .push p => encode p
  | _ => []

/-- Pushes come from other requests; the other events are a request's own. -/
def Event.own : Event → Bool
  | .push _ => false
  | _ => true

theorem HandleResult.sessionEvents_output (r : HandleResult) :
    r.sessionEvents.flatMap Event.output = [] := by
  unfold HandleResult.sessionEvents
  split <;> rfl

namespace Lane

variable {c : ConnId} {ok : HandleResult → Prop}

/-! ## Bytes in, bytes out -/

/-- The codec holds the unterminated rest of the received stream, and the
framed packets are the non-empty packets of the stream. -/
structure Framed (L : Lane) : Prop where
  buffer : L.live = true →
    L.context.packetCodec.buffer = (segments L.history.received).2
  framed : L.live = true →
    L.history.framed = (packetsOf L.history.received).filter fun p => !p.isEmpty

variable {L L' : Lane}

theorem framed_of_dead (h : L.live = false) : L.Framed :=
  ⟨fun hl => absurd hl (by simp [h]), fun hl => absurd hl (by simp [h])⟩

theorem Framed.move (hf : L.Framed) (h : Move c ok L L') : L'.Framed := by
  obtain ⟨hb, hp⟩ := hf
  cases h with
  | recv chunk hlive hun hgr hok =>
    obtain ⟨hgrow, hrest⟩ := feed_extends (hb hlive) hok
    refine ⟨fun _ => hrest, fun _ => ?_⟩
    simp only [hgrow, List.filter_append, hp hlive]
  | packet p ps =>
    rcases startRequestOrQueue_cases L.context p with ⟨_, _, _, h⟩ | ⟨_, h⟩ <;>
      simp only [h] <;> exact ⟨hb, hp⟩
  | finish k x =>
    rcases finishRequestAndPopNext_cases L.context with ⟨_, h⟩ | ⟨p, ps, _, _, h⟩ <;>
      simp only [popped, h] <;> exact ⟨hb, hp⟩
  | wake x =>
    rcases popNextRequestIfIdle_cases L.context with ⟨_, h⟩ | ⟨p, ps, _, _, _, h⟩ <;>
      simp only [popped, h] <;> exact ⟨hb, hp⟩
  | close => exact framed_of_dead rfl
  | lose x _ hdead => exact framed_of_dead hdead
  | _ => exact ⟨hb, hp⟩

/-- The bytes sent and the send buffer are the encoded responses and pushes. -/
def Buffered (L : Lane) : Prop :=
  L.live = true →
    L.history.sent ++ L.context.pendingSend = L.history.trace.flatMap Event.output

theorem buffered_of_dead (h : L.live = false) : L.Buffered :=
  fun hl => absurd hl (by simp [h])

/-- Events that put nothing into the send buffer may be recorded. -/
theorem Buffered.record (hb : L.Buffered) {es : List Event} (hes : es.flatMap Event.output = [])
    (hl : L.live = true) :
    L.history.sent ++ L.context.pendingSend = (L.history.trace ++ es).flatMap Event.output := by
  rw [List.flatMap_append, hes, List.append_nil, hb hl]

theorem Buffered.move (hb : L.Buffered) (h : Move c ok L L') : L'.Buffered := by
  cases h with
  | packet p ps =>
    rcases startRequestOrQueue_cases L.context p with ⟨_, _, _, h⟩ | ⟨_, h⟩ <;>
      simp only [h] <;> exact hb
  | start k p x => exact fun hl => hb.record rfl hl
  | result k o x => exact fun hl => hb.record rfl hl
  | answer k r x | push payload =>
    intro hl
    have := hb hl
    simp only [Lane.record, appendPendingSend, List.flatMap_append, ← this, List.append_assoc]
    simp [Event.output]
  | session R u => exact fun hl => hb.record (HandleResult.sessionEvents_output R.result) hl
  | finish k x =>
    rcases finishRequestAndPopNext_cases L.context with ⟨_, h⟩ | ⟨p, ps, _, _, h⟩ <;>
      simp only [popped, h] <;> exact hb
  | wake x =>
    rcases popNextRequestIfIdle_cases L.context with ⟨_, h⟩ | ⟨p, ps, _, _, _, h⟩ <;>
      simp only [popped, h] <;> exact hb
  | write n =>
    intro hl
    have := hb hl
    simpa only [consumePendingSend, List.append_assoc, List.take_append_drop] using this
  | close => exact buffered_of_dead rfl
  | lose x _ hdead => exact buffered_of_dead hdead
  | _ => exact hb

/-! ## Order -/

/-- The packets framed so far are, in order: submitted, granted, queued and not
yet looked at. A stopping server may drop queued ones but submits no more. -/
structure Ordered (L : Lane) : Prop where
  framed : L.live = true → L.stopping = false →
    L.history.framed =
      L.history.submitted ++ L.granted ++ L.context.pendingRequests ++ L.unread
  submitted : L.live = true → L.history.submitted <+: L.history.framed

theorem ordered_of_dead (h : L.live = false) : L.Ordered :=
  ⟨fun hl => absurd hl (by simp [h]), fun hl => absurd hl (by simp [h])⟩

theorem Ordered.move (ho : L.Ordered) (h : Move c ok L L') : L'.Ordered := by
  obtain ⟨hf, hs⟩ := ho
  cases h with
  | recv chunk hlive hun =>
    refine ⟨fun _ hst => ?_, fun hl => (hs hl).trans (List.prefix_append _ _)⟩
    have := hf hlive hst
    rw [hun, List.append_nil] at this
    simp only [this]
  | packet p ps hun hgr =>
    refine ⟨fun hl hst => ?_, hs⟩
    have := hf hl hst
    rcases startRequestOrQueue_cases L.context p with ⟨_, hq, _, h⟩ | ⟨_, h⟩
    · simpa [h, hun, hgr, hq] using this
    · simpa [h, hun, hgr] using this
  | submit p hgr hst =>
    -- the submitted prefix grows by the granted request
    have heq : ∀ _ : L.live = true, L.history.framed =
        (L.history.submitted ++ [p]) ++ (L.context.pendingRequests ++ L.unread) := by
      intro hl
      have := hf hl hst
      simpa [hgr] using this
    refine ⟨fun hl _ => ?_, fun hl => ⟨_, (heq hl).symm⟩⟩
    simpa using heq hl
  | finish k x _ _ hgr hun =>
    refine ⟨fun hl hst => ?_, hs⟩
    have := hf hl hst
    rcases finishRequestAndPopNext_cases L.context with ⟨_, h⟩ | ⟨p, ps, hq, _, h⟩
    · simpa [popped, h, hgr, hun] using this
    · simpa [popped, h, hgr, hun, hq] using this
  | wake x _ hgr hun =>
    refine ⟨fun hl hst => ?_, hs⟩
    have := hf hl hst
    rcases popNextRequestIfIdle_cases L.context with ⟨_, h⟩ | ⟨p, ps, hq, _, _, h⟩
    · simpa [popped, h, hgr, hun] using this
    · simpa [popped, h, hgr, hun, hq] using this
  | clear hst => exact ⟨fun _ h => absurd h (by simp [hst]), hs⟩
  | stop => exact ⟨fun _ h => absurd h (by simp), hs⟩
  | close => exact ordered_of_dead rfl
  | lose x _ hdead => exact ordered_of_dead hdead
  | _ => exact ⟨hf, hs⟩

/-! ## No stranded request -/

/-- Who will look at the queue next: a set flag has an item that will end the
request, the fence counter is the number of fences under way, and a waiting
request has a flag, a fence or a wake-up to wait for. -/
structure Served (L : Lane) : Prop where
  flag : L.live = true → L.stopping = false → L.context.requestInFlight = true →
    L.held.1 ≠ 0 ∨ L.granted ≠ []
  marks : L.live = true → L.context.pendingDeliveryMarks = L.held.2.1
  queue : L.live = true → L.stopping = false → L.context.pendingRequests ≠ [] →
    L.context.requestInFlight = true ∨ 0 < L.context.pendingDeliveryMarks ∨ 0 < L.held.2.2

theorem served_of_dead (h : L.live = false) : L.Served :=
  ⟨fun hl => absurd hl (by simp [h]), fun hl => absurd hl (by simp [h]),
    fun hl => absurd hl (by simp [h])⟩

/-- What the request gate of a lane depends on, apart from the items held. -/
def gate (L : Lane) : Bool × Bool × List Bytes × ConnectionContext :=
  (L.live, L.stopping, L.granted,
    { requestInFlight := L.context.requestInFlight
      pendingRequests := L.context.pendingRequests
      pendingDeliveryMarks := L.context.pendingDeliveryMarks })

/-- Replacing a token by another changes nothing here. -/
theorem Served.retoken (hs : L.Served) {t t' : Token} {x : Share}
    (hx : L.held = Share.token t + x) (hx' : L'.held = Share.token t' + x)
    (hgate : L'.gate = L.gate) : L'.Served := by
  obtain ⟨_, hm, hq⟩ := hs
  simp only [gate, Prod.mk.injEq, ConnectionContext.mk.injEq] at hgate
  obtain ⟨hl, hst, _, _, _, _, hf, hp, hd, _⟩ := hgate
  refine ⟨fun _ _ _ => .inl (by simp [hx']), ?_, ?_⟩
  · simpa [hx, hx', hl, hd] using hm
  · simpa [hx, hx', hl, hst, hf, hp, hd] using hq

theorem Served.move (hs : L.Served) (h : Move c ok L L') : L'.Served := by
  obtain ⟨hf, hm, hq⟩ := id hs
  cases h with
  | packet p ps hun hgr =>
    rcases startRequestOrQueue_cases L.context p with ⟨_, hemp, _, h⟩ | ⟨hshut, h⟩
    · simp only [h]
      exact ⟨fun _ _ _ => .inr (by simp), hm, fun _ _ hne => absurd hemp hne⟩
    · rw [hgr] at hf
      simp only [h]
      refine ⟨hf, hm, fun hl hst _ => ?_⟩
      -- the gate was shut by the flag, by an older request or by a fence
      rcases hshut with h | h | h
      · exact .inl h
      · exact hq hl hst h
      · have := hm hl
        exact .inr (.inl (by simp only; omega))
  | submit p hgr hst => exact ⟨fun _ _ _ => .inl (by simp), by simpa using hm, by simpa using hq⟩
  | start k p x hx | result k o x hx | answerSilent k r x hx | answer k r x hx =>
    exact hs.retoken hx rfl rfl
  | extraToken R =>
    exact ⟨fun _ _ _ => .inl (by simp), by simpa using hm, by simpa using hq⟩
  | finish k x hx hround hgr hun =>
    rw [hx] at hm
    rcases finishRequestAndPopNext_cases L.context with ⟨hwhy, h⟩ | ⟨p, ps, _, _, h⟩
    · simp only [popped, h]
      refine ⟨fun _ _ hfl => absurd hfl (by simp), by simpa using hm, fun _ _ hne => ?_⟩
      exact hwhy.elim (fun h => absurd h hne) (fun h => .inr (.inl h))
    · simp only [popped, h]
      exact ⟨fun _ _ _ => .inr (by simp), by simpa using hm, fun _ _ _ => .inl rfl⟩
  | wake x hx hgr hun =>
    rw [hx, hgr] at hf
    rw [hx] at hm
    rcases popNextRequestIfIdle_cases L.context with ⟨hwhy, h⟩ | ⟨p, ps, _, _, _, h⟩
    · simp only [popped, h]
      refine ⟨by simpa using hf, by simpa using hm, fun _ _ hne => ?_⟩
      rcases hwhy with h | h | h
      · exact absurd h hne
      · exact .inl h
      · exact .inr (.inl h)
    · simp only [popped, h]
      exact ⟨fun _ _ _ => .inr (by simp), by simpa using hm, fun _ _ _ => .inl rfl⟩
  | raise =>
    refine ⟨by simpa [incrementPendingDeliveryMarks] using hf, fun hl => ?_,
      fun hl _ _ => .inr (.inl ?_)⟩
    · have := hm hl
      simp [incrementPendingDeliveryMarks]
      omega
    · have := hm hl
      show 0 < L.context.pendingDeliveryMarks + 1
      omega
  | release x hx =>
    rw [hx] at hf hm
    refine ⟨by simpa [decrementPendingDeliveryMarks] using hf, fun hl => ?_,
      fun _ _ _ => .inr (.inr (Nat.lt_of_lt_of_le Nat.one_pos (Nat.le_add_right 1 _)))⟩
    have := hm hl
    simp [decrementPendingDeliveryMarks] at this ⊢
    omega
  | drop k o x hst hx =>
    rw [hx] at hm
    exact ⟨fun _ h => absurd h (by simp [hst]), by simpa using hm,
      fun _ h => absurd h (by simp [hst])⟩
  | clear hst =>
    exact ⟨fun _ h => absurd h (by simp [hst]), hm, fun _ h => absurd h (by simp [hst])⟩
  | stop => exact ⟨fun _ h => absurd h (by simp), hm, fun _ h => absurd h (by simp)⟩
  | close => exact served_of_dead rfl
  | lose x _ hdead => exact served_of_dead hdead
  | _ => exact ⟨hf, hm, hq⟩

/-! ## Serialisation -/

/-- One request at a time: the in-flight flag counts the tokens and the granted
request. While the server is stopping nothing new is submitted. `clean` keeps
track of the handler results still to be answered. -/
structure Serial (ok : HandleResult → Prop) (L : Lane) : Prop where
  flag : L.live = true → L.stopping = false →
    L.held.1.card + L.granted.length = if L.context.requestInFlight then 1 else 0
  card : L.live = true → L.held.1.card ≤ 1
  clean : L.live = true → ∀ t ∈ L.held.1, ∀ r, t.stage = .ran (some r) → ok r
  round : L.live = true → ∀ R, L.round = some R → ok R.result

theorem serial_of_dead (h : L.live = false) : L.Serial ok :=
  ⟨fun hl => absurd hl (by simp [h]), fun hl => absurd hl (by simp [h]),
    fun hl => absurd hl (by simp [h]), fun hl => absurd hl (by simp [h])⟩

/-- Replacing a token by another of an acceptable stage changes nothing here. -/
theorem Serial.retoken (hs : L.Serial ok) {t t' : Token} {x : Share}
    (hx : L.held = Share.token t + x) (hx' : L'.held = Share.token t' + x)
    (hgate : L'.gate = L.gate) (hok : L.live = true → ∀ r, t'.stage = .ran (some r) → ok r)
    (hround : L.live = true → ∀ R, L'.round = some R → ok R.result) : L'.Serial ok := by
  obtain ⟨hf, hc, hcl, _⟩ := hs
  simp only [gate, Prod.mk.injEq, ConnectionContext.mk.injEq] at hgate
  obtain ⟨hl, hst, hgr, _, _, _, hflag, _⟩ := hgate
  refine ⟨?_, ?_, fun hlive u hu => ?_, fun hlive => hround (hl ▸ hlive)⟩
  · simpa [hx, hx', hl, hst, hgr, hflag] using hf
  · simpa [hx, hx', hl] using hc
  · simp only [hx', Prod.fst_add, Share.token_tokens, Multiset.singleton_add,
      Multiset.mem_cons] at hu
    rcases hu with rfl | hu
    · exact hok (hl ▸ hlive)
    · exact hcl (hl ▸ hlive) u (by simp [hx, hu])

theorem Serial.move (hok : ∀ r, ok r → ¬ r.DefersTwice c) (hs : L.Serial ok) (h : Move c ok L L') :
    L'.Serial ok := by
  obtain ⟨hf, hc, hcl, hr⟩ := id hs
  -- the stage is read off the token that is replaced
  have hran : ∀ {k o x}, L.held = Share.token ⟨k, .ran o⟩ + x → L.live = true →
      ∀ r, o = some r → ok r := by
    intro k o x hx hl r ho
    exact hcl hl ⟨k, .ran o⟩ (by simp [hx]) r (by simp [ho])
  cases h with
  | packet p ps hun hgr =>
    rcases startRequestOrQueue_cases L.context p with ⟨hflag, _, _, h⟩ | ⟨_, h⟩
    · simp only [h]
      refine ⟨fun hl hst => ?_, hc, hcl, hr⟩
      have := hf hl hst
      simp only [hflag, hgr, List.length_nil] at this
      simpa using this
    · simp only [h]
      rw [hgr] at hf
      exact ⟨hf, hc, hcl, hr⟩
  | submit p hgr hst =>
    -- the granted request was the one the flag stands for
    have hnone : L.live = true → L.held.1.card = 0 := by
      intro hl
      have := hf hl hst
      simp only [hgr, List.length_singleton] at this
      split at this <;> omega
    refine ⟨fun hl _ => ?_, fun hl => ?_, fun hl u hu r hstage => ?_, hr⟩
    · have := hf hl hst
      simpa [hgr, Nat.add_comm] using this
    · simp [hnone hl]
    · have : u = ⟨L.history.submitted.length, .waiting p⟩ := by
        simpa [Multiset.card_eq_zero.mp (hnone hl)] using hu
      simp [this] at hstage
  | start k p x hx =>
    exact hs.retoken hx rfl rfl (fun _ r h => by simp at h) hr
  | result k o x hx hok' =>
    exact hs.retoken hx rfl rfl (fun _ r h => hok' r (by simpa using h)) hr
  | answerSilent k r x hx | answer k r x hx =>
    refine hs.retoken hx rfl rfl (fun _ r h => by simp at h) (fun hl R hR => ?_)
    cases hR
    exact hran hx hl r rfl
  | session R u hR =>
    refine ⟨hf, hc, hcl, fun hl R' hR' => ?_⟩
    cases hR'
    exact hr hl R hR
  | extraToken R hR htwice =>
    refine ⟨fun hl => ?_, fun hl => ?_, fun hl => ?_, fun hl => ?_⟩ <;>
      exact absurd htwice (hok _ (hr hl R hR))
  | endRound R => exact ⟨hf, hc, hcl, fun _ R' hR' => by simp at hR'⟩
  | finish k x hx hround hgr hun =>
    have hzero : L.live = true → x.1 = 0 := by
      intro hl
      have := hc hl
      simp only [hx, Prod.fst_add, Share.token_tokens, Multiset.card_add,
        Multiset.card_singleton] at this
      exact Multiset.card_eq_zero.mp (by omega)
    refine ⟨fun hl _ => ?_, fun hl => ?_, fun hl u hu => ?_, hr⟩
    · rcases finishRequestAndPopNext_cases L.context with ⟨_, h⟩ | ⟨p, ps, _, _, h⟩ <;>
        simp [popped, h, hzero hl]
    · simp [hzero hl]
    · simp [hzero hl] at hu
  | wake x hx hgr hun =>
    simp only [hx, Prod.fst_add, Share.wake_tokens, zero_add] at hf hc hcl
    rcases popNextRequestIfIdle_cases L.context with ⟨_, h⟩ | ⟨p, ps, _, hflag, _, h⟩
    · simp only [popped, h]
      rw [hgr] at hf
      exact ⟨hf, hc, hcl, hr⟩
    · simp only [popped, h]
      refine ⟨fun hl hst => ?_, hc, hcl, hr⟩
      have := hf hl hst
      simp only [hflag, hgr, List.length_nil] at this
      simpa using this
  | raise =>
    have htok : (Share.fence + L.held).1 = L.held.1 := by simp
    exact ⟨fun hl hst => htok ▸ hf hl hst, htok ▸ hc, htok ▸ hcl, hr⟩
  | release x hx =>
    have htok : (Share.wake + x).1 = L.held.1 := by simp [hx]
    exact ⟨fun hl hst => htok ▸ hf hl hst, htok ▸ hc, htok ▸ hcl, hr⟩
  | drop k o x hst hx =>
    simp only [hx, Prod.fst_add, Share.token_tokens, Multiset.card_add] at hc
    refine ⟨fun _ h => absurd h (by simp [hst]), fun hl => ?_, fun hl u hu => ?_, hr⟩
    · have := hc hl
      simp only at this ⊢
      omega
    · exact hcl hl u (by simp [hx, hu])
  | clear hst => exact ⟨fun _ h => absurd h (by simp [hst]), hc, hcl, hr⟩
  | stop => exact ⟨fun _ h => absurd h (by simp), hc, hcl, hr⟩
  | close => exact serial_of_dead rfl
  | lose x _ hdead => exact serial_of_dead hdead
  | _ => exact ⟨hf, hc, hcl, hr⟩

end Lane
end ChatServer.Net
