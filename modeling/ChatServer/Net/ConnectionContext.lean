import ChatServer.Codec.PacketCodec

/-!
# Per-connection state

`ConnectionContext` holds the framing codec, the send buffer and the request
serialisation state of one connection: at most one request is handed to the
workers at a time (`requestInFlight`), later ones wait in `pendingRequests`,
and a positive `pendingDeliveryMarks` fences the queue off while delivery
marks of cross-connection pushes are still being written.
-/

namespace ChatServer.Net

open ChatServer.Codec

/-- `ConnectionContext`, less the statistics of `ConnectionMeta`. -/
structure ConnectionContext where
  peerIp : Bytes := []
  packetCodec : PacketCodec := {}
  pendingSend : Bytes := []
  requestInFlight : Bool := false
  pendingRequests : List Bytes := []
  pendingDeliveryMarks : Int := 0
  authenticatedUserId : UserId := 0

namespace ConnectionContext

/-- `appendPendingSend`. -/
def appendPendingSend (ctx : ConnectionContext) (data : Bytes) : ConnectionContext :=
  { ctx with pendingSend := ctx.pendingSend ++ data }

/-- `consumePendingSend`. -/
def consumePendingSend (ctx : ConnectionContext) (bytes : Nat) : ConnectionContext :=
  { ctx with pendingSend := ctx.pendingSend.drop bytes }

/-- `clearPendingSend`. -/
def clearPendingSend (ctx : ConnectionContext) : ConnectionContext :=
  { ctx with pendingSend := [] }

/-- `startRequestOrQueue`: `true` when the caller now owns the connection. -/
def startRequestOrQueue (ctx : ConnectionContext) (request : Bytes) :
    Bool × ConnectionContext :=
  if !ctx.requestInFlight && ctx.pendingRequests.isEmpty && ctx.pendingDeliveryMarks == 0 then
    (true, { ctx with requestInFlight := true })
  else
    (false, { ctx with pendingRequests := ctx.pendingRequests ++ [request] })

/-- `finishRequestAndPopNext`. -/
def finishRequestAndPopNext (ctx : ConnectionContext) : Option Bytes × ConnectionContext :=
  match ctx.pendingRequests with
  | [] => (none, { ctx with requestInFlight := false })
  | next :: rest =>
    if ctx.pendingDeliveryMarks > 0 then (none, { ctx with requestInFlight := false })
    else (some next, { ctx with pendingRequests := rest, requestInFlight := true })

/-- `popNextRequestIfIdle`. -/
def popNextRequestIfIdle (ctx : ConnectionContext) : Option Bytes × ConnectionContext :=
  match ctx.pendingRequests with
  | [] => (none, ctx)
  | next :: rest =>
    if ctx.requestInFlight || ctx.pendingDeliveryMarks > 0 then (none, ctx)
    else (some next, { ctx with pendingRequests := rest, requestInFlight := true })

/-- `clearPendingRequests`. -/
def clearPendingRequests (ctx : ConnectionContext) : ConnectionContext :=
  { ctx with requestInFlight := false, pendingRequests := [] }

/-- `incrementPendingDeliveryMarks`. -/
def incrementPendingDeliveryMarks (ctx : ConnectionContext) : ConnectionContext :=
  { ctx with pendingDeliveryMarks := ctx.pendingDeliveryMarks + 1 }

/-- `decrementPendingDeliveryMarks`. -/
def decrementPendingDeliveryMarks (ctx : ConnectionContext) : ConnectionContext :=
  { ctx with pendingDeliveryMarks := ctx.pendingDeliveryMarks - 1 }

/-- `shouldDeferTimeout`. -/
def shouldDeferTimeout (ctx : ConnectionContext) : Bool :=
  ctx.requestInFlight || !ctx.pendingRequests.isEmpty || ctx.pendingDeliveryMarks > 0 ||
    !ctx.pendingSend.isEmpty

/-! ## What the queue operations do -/

/-- The gate is open exactly for an idle, unfenced connection with no queue. -/
theorem startRequestOrQueue_cases (ctx : ConnectionContext) (p : Bytes) :
    (ctx.requestInFlight = false ∧ ctx.pendingRequests = [] ∧ ctx.pendingDeliveryMarks = 0 ∧
      ctx.startRequestOrQueue p = (true, { ctx with requestInFlight := true })) ∨
    ((ctx.requestInFlight = true ∨ ctx.pendingRequests ≠ [] ∨ ctx.pendingDeliveryMarks ≠ 0) ∧
      ctx.startRequestOrQueue p =
        (false, { ctx with pendingRequests := ctx.pendingRequests ++ [p] })) := by
  unfold startRequestOrQueue
  split
  · rename_i h
    simp only [Bool.and_eq_true, Bool.not_eq_true', List.isEmpty_iff, beq_iff_eq] at h
    exact .inl ⟨h.1.1, h.1.2, h.2, rfl⟩
  · rename_i h
    simp only [Bool.and_eq_true, Bool.not_eq_true', List.isEmpty_iff, beq_iff_eq] at h
    refine .inr ⟨?_, rfl⟩
    by_cases hf : ctx.requestInFlight = true
    · exact .inl hf
    · by_cases hq : ctx.pendingRequests = []
      · exact .inr (.inr fun hm => h ⟨⟨by simpa using hf, hq⟩, hm⟩)
      · exact .inr (.inl hq)

/-- The flag passes to the oldest queued request, unless a fence is up. -/
theorem finishRequestAndPopNext_cases (ctx : ConnectionContext) :
    ((ctx.pendingRequests = [] ∨ 0 < ctx.pendingDeliveryMarks) ∧
      ctx.finishRequestAndPopNext = (none, { ctx with requestInFlight := false })) ∨
    ∃ p ps, ctx.pendingRequests = p :: ps ∧ ctx.pendingDeliveryMarks ≤ 0 ∧
      ctx.finishRequestAndPopNext =
        (some p, { ctx with pendingRequests := ps, requestInFlight := true }) := by
  unfold finishRequestAndPopNext
  cases hq : ctx.pendingRequests with
  | nil => exact .inl ⟨.inl rfl, rfl⟩
  | cons p ps =>
    by_cases hm : ctx.pendingDeliveryMarks > 0
    · exact .inl ⟨.inr hm, by simp [hm]⟩
    · exact .inr ⟨p, ps, rfl, by omega, by simp [hm]⟩

/-- A wake-up starts the oldest queued request of an idle, unfenced connection. -/
theorem popNextRequestIfIdle_cases (ctx : ConnectionContext) :
    ((ctx.pendingRequests = [] ∨ ctx.requestInFlight = true ∨ 0 < ctx.pendingDeliveryMarks) ∧
      ctx.popNextRequestIfIdle = (none, ctx)) ∨
    ∃ p ps, ctx.pendingRequests = p :: ps ∧ ctx.requestInFlight = false ∧
      ctx.pendingDeliveryMarks ≤ 0 ∧
      ctx.popNextRequestIfIdle =
        (some p, { ctx with pendingRequests := ps, requestInFlight := true }) := by
  unfold popNextRequestIfIdle
  cases hq : ctx.pendingRequests with
  | nil => exact .inl ⟨.inl rfl, rfl⟩
  | cons p ps =>
    by_cases hf : ctx.requestInFlight = true
    · exact .inl ⟨.inr (.inl hf), by simp [hf]⟩
    · by_cases hm : ctx.pendingDeliveryMarks > 0
      · exact .inl ⟨.inr (.inr hm), by simp [hm]⟩
      · exact .inr ⟨p, ps, rfl, by simpa using hf, by omega, by simp [hf, hm]⟩

end ConnectionContext
end ChatServer.Net
