import ChatServer.Net.Pending

/-!
# What the server guarantees to a connection

* `requests_serialized` — one request at a time and in order, for handler
  results whose end is deferred at most once; `two_requests_in_process` is a
  run in which a result takes both deferred paths and two requests of one
  connection end up in the pool.
* `connection_refines_loop` — the connection sees the sequential loop.
* `no_request_stranded` — a queued request always has something to wait for.
-/

namespace ChatServer.Net

open ChatServer.Codec ConnectionContext

/-! ## Invariants of all lanes -/

namespace Server

variable {s : Server} {c : ConnId}

variable {ok : ConnId → HandleResult → Prop}

/-- The invariants that hold for every handler. -/
theorem lane_ordinary (hs : lts.Reach (HandlerOk ok) s) (c : ConnId) :
    (s.lane c).Framed ∧ (s.lane c).Buffered ∧ (s.lane c).Ordered ∧ (s.lane c).Served := by
  refine lane_invariant (P := fun _ L => L.Framed ∧ L.Buffered ∧ L.Ordered ∧ L.Served)
    ?_ ?_ ?_ hs c
  · intro _ L hb
    exact ⟨Lane.framed_of_dead hb.live, Lane.buffered_of_dead hb.live,
      Lane.ordered_of_dead hb.live, Lane.served_of_dead hb.live⟩
  · intro _ st peerIp
    refine ⟨⟨fun _ => rfl, fun _ => rfl⟩, fun _ => rfl, ⟨fun _ _ => rfl, fun _ => ?_⟩,
      ⟨fun _ _ h => ?_, fun _ => rfl, fun _ _ h => ?_⟩⟩
    · exact List.nil_prefix
    · simp [Lane.fresh] at h
    · simp [Lane.fresh] at h
  · rintro _ L L' ⟨hf, hb, ho, hv⟩ hm
    exact ⟨hf.move hm, hb.move hm, ho.move hm, hv.move hm⟩

/-- The invariants that need results whose end is not deferred twice. -/
theorem lane_serial (hok : ∀ c r, ok c r → ¬ r.DefersTwice c) (hs : lts.Reach (HandlerOk ok) s)
    (c : ConnId) : (s.lane c).Serial (ok c) ∧ (s.lane c).Traced := by
  refine lane_invariant (P := fun c L => L.Serial (ok c) ∧ L.Traced) ?_ ?_ ?_ hs c
  · intro _ L hb
    exact ⟨Lane.serial_of_dead hb.live, Lane.traced_of_dead hb.live⟩
  · intro c st peerIp
    refine ⟨⟨fun _ _ => rfl, fun _ => ?_, fun _ t ht => ?_, fun _ R hR => ?_⟩, fun _ => .idle []⟩
    · simp [Lane.fresh]
    · simp [Lane.fresh] at ht
    · simp [Lane.fresh] at hR
  · rintro c L L' ⟨hser, htr⟩ hm
    exact ⟨hser.move (hok c) hm, htr.move (hok c) hser hm⟩

/-- Every request in process is the last one submitted. -/
theorem inProcess_index (hok : ∀ c r, ok c r → ¬ r.DefersTwice c)
    (hs : lts.Reach (HandlerOk ok) s) (hreg : s.registered c = true) {i : Nat}
    (hi : i ∈ s.inProcess c) : i + 1 = (s.history c).submitted.length := by
  have htr := (lane_serial hok hs c).2 hreg
  rcases List.mem_append.mp hi with hi | hi
  · have hmem : i ∈ (s.held c).1.map Token.index := by
      rw [held_ends]
      exact hi
    obtain ⟨t, ht, rfl⟩ := Multiset.mem_map.mp hmem
    exact htr.index_of_token ht
  · cases hio : s.io with
    | round pos loc ops =>
      rw [hio] at hi
      simp only [Io.rounds] at hi
      split at hi
      · rename_i hc
        obtain rfl := List.mem_singleton.mp hi
        exact htr.index_of_round (R := ⟨loc.task.index, loc.task.result, pos.applied⟩)
          (by simp [lane, hio, Io.roundOf, hc])
      · simp at hi
    | _ => simp [hio, Io.rounds] at hi

/-! ## One request at a time -/

/-- At most one request of a registered connection is between its submission
and the end of its processing, and the submitted requests are the first framed
packets in order. Results whose end would be deferred twice are excluded. -/
theorem requests_serialized
    (hs : lts.Reach (HandlerOk fun c r => ¬ r.DefersTwice c) s) (hreg : s.registered c = true) :
    (∀ i ∈ s.inProcess c, ∀ j ∈ s.inProcess c, i = j) ∧
      (s.history c).submitted <+: (s.history c).framed := by
  refine ⟨fun i hi j hj => ?_, (lane_ordinary hs c).2.2.1.submitted hreg⟩
  have h1 := inProcess_index (fun _ _ h => h) hs hreg hi
  have h2 := inProcess_index (fun _ _ h => h) hs hreg hj
  omega

/-- Labels whose results all meet the condition make an admitted run. -/
theorem runOk_of_results {ls : List Label} (h : ∀ i r, Label.worker i (some r) ∈ ls → ∀ c, ok c r) :
    lts.RunOk (HandlerOk ok) s ls := by
  induction ls generalizing s with
  | nil => trivial
  | cons l ls ih =>
    refine ⟨fun i r t hl _ => h i r (by simp [hl]) _, fun s' _ => ih fun i r hmem => ?_⟩
    exact h i r (List.mem_cons_of_mem _ hmem)

/-- Three packets arrive in one chunk; the first is submitted and handled with
the given result, and the I/O thread takes its response up to the session. -/
def handleFirst (r : HandleResult) : List Label :=
  [.accept [], .readable 1, .io { recv := .data [97, 10, 98, 10, 99, 10] },
    .io {}, .io {}, .io {}, .io {}, .io {}, .io {},
    .take, .worker 0 (some r), .worker 0 none, .worker 0 none, .worker 0 none,
    .workerResult, .io {}, .io {}, .io {}]

/-- A result with a delivered batch and a push to the same connection. -/
def twiceDeferred : HandleResult :=
  { response := [114], deliveredMessageIds := [[109]], deliveredUserId := 7
    pushes := [{ targetConnId := 1, targetUserId := 7, payload := [112], messageId := [110] }] }

/-- The rest of the round, both mark tasks, and the two finish events. -/
def doubleRelease : List Label :=
  handleFirst twiceDeferred ++
    [.io {}, .io {}, .io {}, .io {}, .io {}, .io {}, .io {}, .io {},
      .take, .take, .worker 0 none, .worker 0 none, .worker 0 none, .worker 0 none,
      .workerResult, .io {}, .io {}, .io {}, .io {}, .io {}, .io {}, .io {}]

/-- A result that is deferred twice releases the connection twice: requests 1
and 2 are in process together. -/
theorem two_requests_in_process :
    ∃ s, lts.Reachable s ∧ s.registered 1 = true ∧ s.inProcess 1 = [1, 2] := by
  obtain ⟨s, hs, h⟩ := Base.Lts.exists_reach_of_run (M := lts) (s := {})
    (fun s => s.registered 1 && decide (s.inProcess 1 = [1, 2])) doubleRelease rfl
    Base.Lts.runOk_true (by decide +kernel)
  simp only [Bool.and_eq_true, decide_eq_true_eq] at h
  exact ⟨s, hs, h⟩

/-- A plain response to the first packet. -/
def plainResult : HandleResult := { response := [114] }

/-- The theorem at a state in the middle of a response round. -/
theorem requests_serialized_in_round :
    ∃ s : Server, s.registered 1 = true ∧ s.inProcess 1 = [0, 0] ∧
      (∀ i ∈ s.inProcess 1, ∀ j ∈ s.inProcess 1, i = j) ∧
      (s.history 1).submitted <+: (s.history 1).framed := by
  have hok : lts.RunOk (HandlerOk fun c r => ¬ r.DefersTwice c) {} (handleFirst plainResult) := by
    refine runOk_of_results fun i r hmem c => ?_
    have hr : i = 0 ∧ r = plainResult := by simpa [handleFirst] using hmem
    simp [hr.2, HandleResult.DefersTwice, plainResult]
  obtain ⟨s, hs, h⟩ := Base.Lts.exists_reach_of_run
    (fun s : Server => s.registered 1 && decide (s.inProcess 1 = [0, 0])) _ rfl hok (by decide +kernel)
  simp only [Bool.and_eq_true, decide_eq_true_eq] at h
  exact ⟨s, h.1, h.2, requests_serialized hs h.1⟩

/-! ## The sequential loop -/

/-- For handlers that deliver no marks, an open connection sees the loop
`handle; append response; apply session action` over the non-empty packets of
the bytes it has sent: its own events are a beginning of that loop, all of it
for the submitted requests when none is in process, and the bytes sent and
buffered are the encoded responses and pushes in the order of the trace. -/
theorem connection_refines_loop
    (hs : lts.Reach (HandlerOk fun _ r =>
      r.deliveredMessageIds = [] ∧ ∀ p ∈ r.pushes, p.messageId = []) s)
    (hreg : s.registered c = true) :
    ∃ outcomes : List (Option HandleResult),
      (s.history c).trace.filter Event.own <+: sequential
        ((packetsOf (s.history c).received).filter fun p => !p.isEmpty) outcomes ∧
      (s.inProcess c = [] → s.stopping = false →
        (s.history c).trace.filter Event.own =
          sequential (s.history c).submitted outcomes) ∧
      (s.history c).submitted <+:
        (packetsOf (s.history c).received).filter (fun p => !p.isEmpty) ∧
      (s.history c).sent ++ (s.contexts c).pendingSend =
        (s.history c).trace.flatMap Event.output := by
  have hok : ∀ (c : ConnId) (r : HandleResult),
      (r.deliveredMessageIds = [] ∧ ∀ p ∈ r.pushes, p.messageId = []) → ¬ r.DefersTwice c :=
    fun _ r h htwice => htwice.2.1 h.1
  obtain ⟨hframed, hbuf, hord, _⟩ := lane_ordinary hs c
  have htr := (lane_serial hok hs c).2 hreg
  obtain ⟨rest, hrest⟩ := hord.submitted hreg
  have hpackets := hframed.framed hreg
  simp only [lane] at hrest hpackets htr
  rw [← hpackets, ← hrest]
  by_cases hidle : s.inProcess c = [] ∧ s.stopping = false
  · -- nothing is in process: the loop is through with what was submitted
    have hnone : (s.held c).1 = 0 := by
      have hends : (s.pendingEnds c : Multiset ℕ) = 0 := by
        simp only [inProcess, List.append_eq_nil_iff] at hidle
        simp [hidle.1.1]
      rw [← held_ends] at hends
      exact Multiset.map_eq_zero.mp hends
    obtain ⟨_, done, hsub, hdone⟩ := htr.of_no_token hnone hidle.2
    refine ⟨done.map fun d => some d.2, ?_, fun _ _ => ?_, List.prefix_append _ _, hbuf hreg⟩
    · have := sequential_append done rest []
      rw [List.append_nil] at this
      rw [hdone, hsub, this]
      exact List.prefix_append _ _
    · rw [hdone, hsub, sequential_done]
  · obtain ⟨os, _, hos⟩ := htr.sequential rest
    exact ⟨os, hos, fun h1 h2 => absurd ⟨h1, h2⟩ hidle, List.prefix_append _ _, hbuf hreg⟩

/-- The theorem at a state in which the first of three packets is answered. -/
theorem connection_refines_loop_answered :
    ∃ s : Server, s.registered 1 = true ∧
      (s.history 1).trace =
        [.handleBegin [97], .handleEnd (some plainResult), .response [114]] ∧
      ∃ outcomes, (s.history 1).trace.filter Event.own <+: sequential
        ((packetsOf (s.history 1).received).filter fun p => !p.isEmpty) outcomes := by
  have hok : lts.RunOk (HandlerOk fun _ r =>
      r.deliveredMessageIds = [] ∧ ∀ p ∈ r.pushes, p.messageId = []) {}
      (handleFirst plainResult) := by
    refine runOk_of_results fun i r hmem c => ?_
    have hr : i = 0 ∧ r = plainResult := by simpa [handleFirst] using hmem
    simp [hr.2, plainResult]
  obtain ⟨s, hs, h⟩ := Base.Lts.exists_reach_of_run
    (fun s : Server => s.registered 1 && decide ((s.history 1).trace =
      [.handleBegin [97], .handleEnd (some plainResult), .response [114]])) _ rfl hok
    (by decide +kernel)
  simp only [Bool.and_eq_true, decide_eq_true_eq] at h
  obtain ⟨outcomes, hpre, _⟩ := connection_refines_loop hs h.1
  exact ⟨s, h.1, h.2, outcomes, hpre⟩

/-! ## No stranded request -/

/-- For any handler: the fence counter of a registered connection is the number
of outstanding mark tasks, and unless the server is stopping a queued request
waits for the end of the request in flight, for a fence, or for a wake-up. -/
theorem no_request_stranded (hs : lts.Reachable s) (hreg : s.registered c = true) :
    (s.stopping = false → (s.contexts c).pendingRequests ≠ [] →
      ((s.contexts c).requestInFlight = true ∧
        (s.pendingEnds c ≠ [] ∨ s.io.granted c ≠ [])) ∨
      0 < (s.contexts c).pendingDeliveryMarks ∨
      0 < s.wakeUps c) ∧
    (s.contexts c).pendingDeliveryMarks = s.outstandingMarks c ∧
    0 ≤ (s.contexts c).pendingDeliveryMarks := by
  have hany : lts.Reach (HandlerOk fun _ _ => True) s := hs.mono fun _ _ _ _ _ _ _ _ => trivial
  have hserved := (lane_ordinary hany c).2.2.2
  have hmarks : (s.contexts c).pendingDeliveryMarks = s.outstandingMarks c := by
    rw [← held_fences]
    exact hserved.marks hreg
  refine ⟨fun hst hq => ?_, hmarks, by omega⟩
  rcases hserved.queue hreg hst hq with hflag | hm | hw
  · refine .inl ⟨hflag, (hserved.flag hreg hst hflag).imp_left fun hne hnil => hne ?_⟩
    have hends : (s.pendingEnds c : Multiset ℕ) = 0 := by simp [hnil]
    rw [← held_ends] at hends
    exact Multiset.map_eq_zero.mp hends
  · exact .inr (.inl hm)
  · exact .inr (.inr (held_wakes c s ▸ hw))

/-- The theorem at a state with two packets queued behind the first. -/
theorem no_request_stranded_queued :
    ∃ s : Server, s.registered 1 = true ∧ s.stopping = false ∧
      (s.contexts 1).pendingRequests = [[98], [99]] ∧
      (((s.contexts 1).requestInFlight = true ∧
        (s.pendingEnds 1 ≠ [] ∨ s.io.granted 1 ≠ [])) ∨
      0 < (s.contexts 1).pendingDeliveryMarks ∨ 0 < s.wakeUps 1) := by
  obtain ⟨s, hs, h⟩ := Base.Lts.exists_reach_of_run (M := lts) (s := {})
    (fun s => s.registered 1 && !s.stopping &&
      decide ((s.contexts 1).pendingRequests = [[98], [99]])) (handleFirst plainResult) rfl
    Base.Lts.runOk_true (by decide +kernel)
  simp only [Bool.and_eq_true, decide_eq_true_eq, Bool.not_eq_true'] at h
  obtain ⟨⟨hreg, hst⟩, hq⟩ := h
  exact ⟨s, hreg, hst, hq, (no_request_stranded hs hreg).1 hst (by simp [hq])⟩

end Server
end ChatServer.Net
