import ChatServer.Base.Lts
import ChatServer.Net.ConnectionContext

/-!
# The request queue of a connection

Three operations of `ConnectionContext` hand a request to a worker:
`startRequestOrQueue` the one it is given, the other two the oldest queued one.
Here they are called in any order on a live connection, together with the two
operations that raise and lower the delivery fence, and a history is kept of what
was offered and what was handed out.

* `RequestHistory.lts` — the sequences of calls: a request is finished only while
  one is out, the fence is lowered as often as it was raised at most;
* `Fifo` — the history against the fields of the context, kept by every call;
* `request_queue_fenced` — what that says of every sequence of calls.
-/

namespace ChatServer.Net

/-- A call on the context of a live connection. -/
inductive RequestCall where
  | startRequestOrQueue (request : Bytes)
  | finishRequestAndPopNext
  | popNextRequestIfIdle
  | incrementPendingDeliveryMarks
  | decrementPendingDeliveryMarks
  deriving DecidableEq, Repr

/-- The context and what was done with it; no call reads the history. -/
structure RequestHistory where
  context : ConnectionContext := {}
  /-- the requests `startRequestOrQueue` was called with -/
  offered : List Bytes := []
  /-- the requests some call handed to its caller -/
  granted : List Bytes := []
  /-- how many of them were finished -/
  finished : Nat := 0
  /-- how often the fence was raised and not lowered again -/
  raised : Nat := 0

namespace RequestHistory

def step (s : RequestHistory) : RequestCall → Option RequestHistory
  | .startRequestOrQueue request =>
    let r := s.context.startRequestOrQueue request
    some
      { s with
        context := r.2
        offered := s.offered ++ [request]
        granted := if r.1 then s.granted ++ [request] else s.granted }
  | .finishRequestAndPopNext =>
    -- the caller holds a request that it has not finished
    if s.finished < s.granted.length then
      let r := s.context.finishRequestAndPopNext
      some
        { s with
          context := r.2
          granted := s.granted ++ r.1.toList
          finished := s.finished + 1 }
    else none
  | .popNextRequestIfIdle =>
    let r := s.context.popNextRequestIfIdle
    some { s with context := r.2, granted := s.granted ++ r.1.toList }
  | .incrementPendingDeliveryMarks =>
    some { s with context := s.context.incrementPendingDeliveryMarks, raised := s.raised + 1 }
  | .decrementPendingDeliveryMarks =>
    if 0 < s.raised then
      some { s with context := s.context.decrementPendingDeliveryMarks, raised := s.raised - 1 }
    else none

/-- A new context: no request, no fence, no history. -/
def Initial (s : RequestHistory) : Prop :=
  s.context.requestInFlight = false ∧ s.context.pendingRequests = [] ∧
    s.context.pendingDeliveryMarks = 0 ∧ s.offered = [] ∧ s.granted = [] ∧ s.finished = 0 ∧
      s.raised = 0

def lts : Base.Lts RequestHistory RequestCall where
  Init := Initial
  step := step

/-- The queue is what was offered and not yet handed out, in order; the flag counts
the request that is out, and the marks count the fences. -/
structure Fifo (s : RequestHistory) : Prop where
  order : s.granted ++ s.context.pendingRequests = s.offered
  flight : s.granted.length = s.finished + s.context.requestInFlight.toNat
  marks : s.context.pendingDeliveryMarks = s.raised

variable {s s' : RequestHistory}

/-! ## One call -/

theorem Fifo.startRequestOrQueue (h : Fifo s) {request : Bytes}
    (hstep : s.step (.startRequestOrQueue request) = some s') : Fifo s' := by
  obtain rfl := Option.some.inj hstep
  have horder := h.order
  have hflight := h.flight
  rcases s.context.startRequestOrQueue_cases request with ⟨hidle, hempty, -, heq⟩ | ⟨-, heq⟩
  · -- an empty queue: the request is handed out at once, behind all granted ones
    rw [hempty, List.append_nil] at horder
    rw [hidle] at hflight
    refine ⟨?_, ?_, ?_⟩
    · simp [heq, hempty, horder]
    · simp [heq]
      simpa using hflight
    · simpa [heq] using h.marks
  · refine ⟨?_, ?_, ?_⟩
    · simp [heq, ← horder]
    · simpa [heq] using hflight
    · simpa [heq] using h.marks

theorem Fifo.finishRequestAndPopNext (h : Fifo s)
    (hstep : s.step .finishRequestAndPopNext = some s') : Fifo s' := by
  simp only [step] at hstep
  split at hstep
  · rename_i hout
    obtain rfl := Option.some.inj hstep
    have horder := h.order
    have hflight := h.flight
    -- the caller's request is the one the flag stands for
    have hone : s.context.requestInFlight.toNat = 1 := by
      have := Bool.toNat_le s.context.requestInFlight
      omega
    rw [hone] at hflight
    rcases s.context.finishRequestAndPopNext_cases with ⟨-, heq⟩ | ⟨next, rest, hqueue, -, heq⟩
    · refine ⟨?_, ?_, ?_⟩
      · simpa [heq] using horder
      · simpa [heq] using hflight
      · simpa [heq] using h.marks
    · rw [hqueue] at horder
      refine ⟨?_, ?_, ?_⟩
      · simpa [heq] using horder
      · simpa [heq] using hflight
      · simpa [heq] using h.marks
  · cases hstep

theorem Fifo.popNextRequestIfIdle (h : Fifo s)
    (hstep : s.step .popNextRequestIfIdle = some s') : Fifo s' := by
  obtain rfl := Option.some.inj hstep
  have horder := h.order
  have hflight := h.flight
  rcases s.context.popNextRequestIfIdle_cases with ⟨-, heq⟩ | ⟨next, rest, hqueue, hidle, -, heq⟩
  · refine ⟨?_, ?_, ?_⟩
    · simpa [heq] using horder
    · simpa [heq] using hflight
    · simpa [heq] using h.marks
  · rw [hqueue] at horder
    rw [hidle] at hflight
    refine ⟨?_, ?_, ?_⟩
    · simpa [heq] using horder
    · simp [heq]
      simpa using hflight
    · simpa [heq] using h.marks

theorem Fifo.decrementPendingDeliveryMarks (h : Fifo s)
    (hstep : s.step .decrementPendingDeliveryMarks = some s') : Fifo s' := by
  simp only [step] at hstep
  split at hstep
  · rename_i hraised
    obtain rfl := Option.some.inj hstep
    have hmarks := h.marks
    refine ⟨h.order, h.flight, ?_⟩
    show s.context.pendingDeliveryMarks - 1 = ((s.raised - 1 : Nat) : Int)
    omega
  · cases hstep

theorem inductive_fifo : lts.Inductive (fun _ _ => True) Fifo where
  init := by
    intro s hs
    obtain ⟨hidle, hqueue, hmarks, hoffered, hgranted, hfinished, hraised⟩ := hs
    refine ⟨?_, ?_, ?_⟩
    · rw [hgranted, hqueue, hoffered, List.append_nil]
    · rw [hgranted, hfinished, hidle]
      rfl
    · rw [hmarks, hraised]
      rfl
  step := by
    intro s call s' h _ hstep
    cases call with
    | startRequestOrQueue request => exact h.startRequestOrQueue hstep
    | finishRequestAndPopNext => exact h.finishRequestAndPopNext hstep
    | popNextRequestIfIdle => exact h.popNextRequestIfIdle hstep
    | incrementPendingDeliveryMarks =>
      obtain rfl := Option.some.inj hstep
      refine ⟨h.order, h.flight, ?_⟩
      show s.context.pendingDeliveryMarks + 1 = ((s.raised + 1 : Nat) : Int)
      rw [h.marks]
      rfl
    | decrementPendingDeliveryMarks => exact h.decrementPendingDeliveryMarks hstep

/-- Behind a raised fence no call hands out a request. -/
theorem granted_of_fence {call : RequestCall} (hfence : 0 < s.context.pendingDeliveryMarks)
    (hstep : s.step call = some s') : s'.granted = s.granted := by
  cases call with
  | startRequestOrQueue request =>
    obtain rfl := Option.some.inj hstep
    rcases s.context.startRequestOrQueue_cases request with ⟨-, -, hopen, -⟩ | ⟨-, heq⟩
    · omega
    · simp [heq]
  | finishRequestAndPopNext =>
    simp only [step] at hstep
    split at hstep
    · obtain rfl := Option.some.inj hstep
      rcases s.context.finishRequestAndPopNext_cases with ⟨-, heq⟩ | ⟨_, _, -, hopen, -⟩
      · simp [heq]
      · omega
    · cases hstep
  | popNextRequestIfIdle =>
    obtain rfl := Option.some.inj hstep
    rcases s.context.popNextRequestIfIdle_cases with ⟨-, heq⟩ | ⟨_, _, -, -, hopen, -⟩
    · simp [heq]
    · omega
  | incrementPendingDeliveryMarks =>
    obtain rfl := Option.some.inj hstep
    rfl
  | decrementPendingDeliveryMarks =>
    simp only [step] at hstep
    split at hstep
    · obtain rfl := Option.some.inj hstep
      rfl
    · cases hstep

/-! ## Every sequence of calls -/

/-- The granted requests followed by the queued ones are the offered ones in order,
the flag is up exactly while one granted request is not finished, and behind a raised
fence no call grants a request. -/
theorem request_queue_fenced (hs : lts.Reachable s) :
    s.granted ++ s.context.pendingRequests = s.offered ∧
      (s.context.requestInFlight = true ↔ s.granted.length = s.finished + 1) ∧
      (s.context.requestInFlight = false ↔ s.granted.length = s.finished) ∧
      ∀ call s', 0 < s.context.pendingDeliveryMarks → lts.step s call = some s' →
        s'.granted = s.granted := by
  have h := inductive_fifo.invariant hs
  have hflight := h.flight
  refine ⟨h.order, ?_, ?_, fun call s' hfence hstep => granted_of_fence hfence hstep⟩
  · cases hf : s.context.requestInFlight with
    | true => simp [hflight, hf]
    | false => simp [hflight, hf]
  · cases hf : s.context.requestInFlight with
    | true => simp [hflight, hf]
    | false => simp [hflight, hf]

/-- A request is out when the fence goes up, and two more arrive behind it: the
first is queued before the fence is lowered and the second after. -/
def queuedBehindFence : List RequestCall :=
  [.startRequestOrQueue (str "current"), .incrementPendingDeliveryMarks,
    .finishRequestAndPopNext, .startRequestOrQueue (str "queued_old"),
    .decrementPendingDeliveryMarks, .startRequestOrQueue (str "queued_new"),
    .popNextRequestIfIdle, .incrementPendingDeliveryMarks]

theorem request_queue_fenced_queued :
    ∃ s, lts.Reachable s ∧ s.context.pendingRequests = [str "queued_new"] ∧
      s.granted ++ [str "queued_new"] = s.offered ∧ s.granted.length = s.finished + 1 ∧
      ∀ call s', lts.step s call = some s' → s'.granted = s.granted := by
  obtain ⟨s, hs, h⟩ := Base.Lts.exists_reach_of_run (M := lts) (s := {})
    (fun s => decide (s.context.pendingRequests = [str "queued_new"] ∧
      s.context.requestInFlight = true ∧ s.context.pendingDeliveryMarks = 1))
    queuedBehindFence ⟨rfl, rfl, rfl, rfl, rfl, rfl, rfl⟩ Base.Lts.runOk_true (by decide +kernel)
  obtain ⟨hqueue, hout, hmarks⟩ := of_decide_eq_true h
  obtain ⟨horder, hflight, -, hfence⟩ := request_queue_fenced hs
  refine ⟨s, hs, hqueue, hqueue ▸ horder, hflight.mp hout, fun call s' hstep => ?_⟩
  exact hfence call s' (by omega) hstep

end RequestHistory
end ChatServer.Net
