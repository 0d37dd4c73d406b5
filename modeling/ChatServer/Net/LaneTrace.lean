import ChatServer.Net.LaneInv

/-!
# A lane is a sequential loop

The specification of a connection is the loop `handle; append the response;
apply the session action`, one packet after the other. `Traces` says where in
this loop a lane is, and `Traced.move` that every move either leaves the
position alone or advances it.
-/

namespace ChatServer.Net

open ChatServer.Codec ConnectionContext

/-! ## The loop -/

/-- One round of the loop. -/
def serveOne (p : Bytes) (r : HandleResult) : List Event :=
  [.handleBegin p, .handleEnd (some r)] ++ r.responseEvents ++ r.sessionEvents

/-- Rounds that have been completed. -/
def serve (done : List (Bytes × HandleResult)) : List Event :=
  done.flatMap fun d => serveOne d.1 d.2

/-- The loop over given packets, where `outcomes` says what the handler does
with each; an exception ends it. -/
def sequential : List Bytes → List (Option HandleResult) → List Event
  | p :: ps, some r :: os => serveOne p r ++ sequential ps os
  | p :: _, none :: _ => [.handleBegin p, .handleEnd none]
  | _, _ => []

theorem serve_concat (done : List (Bytes × HandleResult)) (p : Bytes) (r : HandleResult) :
    serve (done ++ [(p, r)]) = serve done ++ serveOne p r := by
  simp [serve]

/-- The loop first completes the rounds it has results for. -/
theorem sequential_append (done : List (Bytes × HandleResult)) (ps : List Bytes)
    (os : List (Option HandleResult)) :
    sequential (done.map Prod.fst ++ ps) (done.map (fun d => some d.2) ++ os) =
      serve done ++ sequential ps os := by
  induction done with
  | nil => rfl
  | cons d done ih => simp [sequential, serve, ih]

theorem sequential_done (done : List (Bytes × HandleResult)) :
    sequential (done.map Prod.fst) (done.map fun d => some d.2) = serve done := by
  simpa [sequential] using sequential_append done [] []

theorem HandleResult.sessionEvents_own (r : HandleResult) :
    r.sessionEvents.filter Event.own = r.sessionEvents := by
  unfold HandleResult.sessionEvents
  split <;> rfl

/-! ## Where in the loop a lane is -/

/-- The tokens and the round of a connection, with the requests submitted and
the own events they account for. -/
inductive Traces (stopping : Bool) :
    Multiset Token → Option Round → List Bytes → List Event → Prop
  | idle (done : List (Bytes × HandleResult)) :
      Traces stopping 0 none (done.map Prod.fst) (serve done)
  | waiting (done : List (Bytes × HandleResult)) (p : Bytes) :
      Traces stopping {⟨done.length, .waiting p⟩} none (done.map Prod.fst ++ [p]) (serve done)
  | running (done : List (Bytes × HandleResult)) (p : Bytes) :
      Traces stopping {⟨done.length, .running⟩} none (done.map Prod.fst ++ [p])
        (serve done ++ [.handleBegin p])
  | ran (done : List (Bytes × HandleResult)) (p : Bytes) (o : Option HandleResult) :
      Traces stopping {⟨done.length, .ran o⟩} none (done.map Prod.fst ++ [p])
        (serve done ++ [.handleBegin p, .handleEnd o])
  | answered (done : List (Bytes × HandleResult)) (p : Bytes) (r : HandleResult) :
      Traces stopping {⟨done.length, .finishing⟩} (some ⟨done.length, r, false⟩)
        (done.map Prod.fst ++ [p])
        (serve done ++ ([.handleBegin p, .handleEnd (some r)] ++ r.responseEvents))
  | applied (done : List (Bytes × HandleResult)) (p : Bytes) (r : HandleResult) :
      Traces stopping {⟨done.length, .finishing⟩} (some ⟨done.length, r, true⟩)
        (done.map Prod.fst ++ [p]) (serve (done ++ [(p, r)]))
  | finishing (done : List (Bytes × HandleResult)) (p : Bytes) (r : HandleResult) :
      Traces stopping {⟨done.length, .finishing⟩} none
        (done.map Prod.fst ++ [p]) (serve (done ++ [(p, r)]))
  /-- a stopping server has dropped the response -/
  | dropped (done : List (Bytes × HandleResult)) (p : Bytes) (o : Option HandleResult) :
      stopping = true →
      Traces stopping 0 none (done.map Prod.fst ++ [p])
        (serve done ++ [.handleBegin p, .handleEnd o])

namespace Traces

variable {st : Bool} {tokens : Multiset Token} {round : Option Round} {submitted : List Bytes}
  {trace : List Event}

/-- Every token is about the last submitted request. -/
theorem index_of_token (h : Traces st tokens round submitted trace) {t : Token}
    (ht : t ∈ tokens) : t.index + 1 = submitted.length := by
  cases h <;> simp_all

/-- So is the round. -/
theorem index_of_round (h : Traces st tokens round submitted trace) {R : Round}
    (hR : round = some R) : R.index + 1 = submitted.length := by
  subst hR
  cases h <;> simp

/-- The own events are a beginning of the loop over any packets that start with
the submitted ones. -/
theorem sequential (h : Traces st tokens round submitted trace) (ps : List Bytes) :
    ∃ os, os.length = submitted.length ∧
      trace <+: Net.sequential (submitted ++ ps) os := by
  -- all cases but the first and the completed ones are inside a round
  have key : ∀ (done : List (Bytes × HandleResult)) (p : Bytes) (o : Option HandleResult)
      (es : List Event), es <+: Net.sequential (p :: ps) [o] →
      ∃ os, os.length = (done.map Prod.fst ++ [p]).length ∧
        serve done ++ es <+: Net.sequential ((done.map Prod.fst ++ [p]) ++ ps) os := by
    intro done p o es hes
    refine ⟨done.map (fun d => some d.2) ++ [o], by simp, ?_⟩
    rw [List.append_assoc, List.singleton_append, sequential_append]
    exact (List.prefix_append_right_inj _).mpr hes
  cases h with
  | idle done =>
    refine ⟨done.map fun d => some d.2, by simp, ?_⟩
    have := sequential_append done ps []
    rw [List.append_nil] at this
    rw [this]
    exact List.prefix_append _ _
  | waiting done p => simpa using key done p none [] List.nil_prefix
  | running done p =>
    exact key done p none _ ⟨[.handleEnd none], rfl⟩
  | ran done p o | dropped done p o =>
    refine key done p o _ ?_
    cases o with
    | none => exact List.prefix_rfl
    | some r => simp [Net.sequential, serveOne]
  | answered done p r =>
    refine key done p (some r) _ ?_
    simp [Net.sequential, serveOne]
  | applied done p r | finishing done p r =>
    rw [serve_concat]
    exact key done p (some r) _ (by simp [Net.sequential])

end Traces

namespace Traces

variable {st : Bool} {tokens m : Multiset Token} {round : Option Round} {submitted : List Bytes}
  {trace : List Event} {k : Nat}

/-! What a token or a round says about the position. -/

theorem of_waiting {p : Bytes} (h : Traces st tokens round submitted trace)
    (ht : tokens = ⟨k, .waiting p⟩ ::ₘ m) :
    m = 0 ∧ round = none ∧ ∃ done : List (Bytes × HandleResult), k = done.length ∧
      submitted = done.map Prod.fst ++ [p] ∧ trace = serve done := by
  cases h with
  | waiting done q =>
    simp only [Multiset.singleton_eq_cons_iff, Token.mk.injEq, Stage.waiting.injEq] at ht
    obtain ⟨⟨rfl, rfl⟩, hm⟩ := ht
    exact ⟨hm, rfl, done, rfl, rfl, rfl⟩
  | _ => simp [Multiset.singleton_eq_cons_iff] at ht

theorem of_running (h : Traces st tokens round submitted trace)
    (ht : tokens = ⟨k, .running⟩ ::ₘ m) :
    m = 0 ∧ round = none ∧ ∃ (done : List (Bytes × HandleResult)) (p : Bytes),
      k = done.length ∧ submitted = done.map Prod.fst ++ [p] ∧
      trace = serve done ++ [.handleBegin p] := by
  cases h with
  | running done p =>
    simp only [Multiset.singleton_eq_cons_iff, Token.mk.injEq, and_true] at ht
    obtain ⟨rfl, hm⟩ := ht
    exact ⟨hm, rfl, done, p, rfl, rfl, rfl⟩
  | _ => simp [Multiset.singleton_eq_cons_iff] at ht

theorem of_ran {o : Option HandleResult} (h : Traces st tokens round submitted trace)
    (ht : tokens = ⟨k, .ran o⟩ ::ₘ m) :
    m = 0 ∧ round = none ∧ ∃ (done : List (Bytes × HandleResult)) (p : Bytes),
      k = done.length ∧ submitted = done.map Prod.fst ++ [p] ∧
      trace = serve done ++ [.handleBegin p, .handleEnd o] := by
  cases h with
  | ran done p o =>
    simp only [Multiset.singleton_eq_cons_iff, Token.mk.injEq, Stage.ran.injEq] at ht
    obtain ⟨⟨rfl, rfl⟩, hm⟩ := ht
    exact ⟨hm, rfl, done, p, rfl, rfl, rfl⟩
  | _ => simp [Multiset.singleton_eq_cons_iff] at ht

theorem of_finishing (h : Traces st tokens round submitted trace)
    (ht : tokens = ⟨k, .finishing⟩ ::ₘ m) (hround : round = none) :
    m = 0 ∧ ∃ done : List (Bytes × HandleResult),
      submitted = done.map Prod.fst ∧ trace = serve done := by
  cases h with
  | finishing done p r =>
    simp only [Multiset.singleton_eq_cons_iff] at ht
    exact ⟨ht.2, done ++ [(p, r)], by simp, rfl⟩
  | answered done p r => simp at hround
  | applied done p r => simp at hround
  | _ => simp [Multiset.singleton_eq_cons_iff] at ht

theorem of_unapplied {R : Round} (h : Traces st tokens round submitted trace)
    (hround : round = some R) (hR : R.applied = false) :
    tokens = {⟨R.index, .finishing⟩} ∧ ∃ (done : List (Bytes × HandleResult)) (p : Bytes),
      R.index = done.length ∧ submitted = done.map Prod.fst ++ [p] ∧
      trace = serve done ++
        ([.handleBegin p, .handleEnd (some R.result)] ++ R.result.responseEvents) := by
  subst hround
  cases h with
  | answered done p r => exact ⟨rfl, done, p, rfl, rfl, rfl⟩
  | applied done p r => simp at hR

theorem of_applied {R : Round} (h : Traces st tokens round submitted trace)
    (hround : round = some R) (hR : R.applied = true) :
    tokens = {⟨R.index, .finishing⟩} ∧ ∃ (done : List (Bytes × HandleResult)) (p : Bytes),
      R.index = done.length ∧ submitted = done.map Prod.fst ++ [p] ∧
      trace = serve (done ++ [(p, R.result)]) := by
  subst hround
  cases h with
  | answered done p r => simp at hR
  | applied done p r => exact ⟨rfl, done, p, rfl, rfl, rfl⟩

/-- With no token and no stop, everything submitted has been served. -/
theorem of_no_token (h : Traces st tokens round submitted trace) (ht : tokens = 0)
    (hst : st = false) :
    round = none ∧ ∃ done : List (Bytes × HandleResult),
      submitted = done.map Prod.fst ∧ trace = serve done := by
  cases h with
  | idle done => exact ⟨rfl, done, rfl, rfl⟩
  | dropped done p o h => simp [hst] at h
  | _ => simp at ht

/-- A stop changes no position. -/
theorem stop (h : Traces st tokens round submitted trace) :
    Traces true tokens round submitted trace := by
  cases h with
  | idle => exact .idle _
  | waiting => exact .waiting _ _
  | running => exact .running _ _
  | ran => exact .ran _ _ _
  | answered => exact .answered _ _ _
  | applied => exact .applied _ _ _
  | finishing => exact .finishing _ _ _
  | dropped => exact .dropped _ _ _ rfl

end Traces

namespace Lane

variable {c : ConnId} {ok : HandleResult → Prop}

/-- The lane of a registered connection is somewhere in the loop. -/
def Traced (L : Lane) : Prop :=
  L.live = true →
    Traces L.stopping L.held.1 L.round L.history.submitted (L.history.trace.filter Event.own)

theorem traced_of_dead {L : Lane} (h : L.live = false) : L.Traced :=
  fun hl => absurd hl (by simp [h])

theorem Traced.move {L L' : Lane} (hok : ∀ r, ok r → ¬ r.DefersTwice c) (hs : L.Serial ok)
    (ht : L.Traced) (h : Move c ok L L') : L'.Traced := by
  cases h with
  | packet p ps =>
    rcases startRequestOrQueue_cases L.context p with ⟨_, _, _, h⟩ | ⟨_, h⟩ <;>
      simp only [h] <;> exact ht
  | submit p hgr hst =>
    intro hl
    -- the granted request owns the flag, so no token is left
    have hnone : L.held.1 = 0 := by
      have := hs.flag hl hst
      simp only [hgr, List.length_singleton] at this
      exact Multiset.card_eq_zero.mp (by split at this <;> omega)
    obtain ⟨hround, done, hsub, htr⟩ := (ht hl).of_no_token hnone hst
    simpa [hnone, hround, hsub, htr] using (Traces.waiting done p : Traces L.stopping _ _ _ _)
  | start k p x hx =>
    intro hl
    obtain ⟨hm, hround, done, rfl, hsub, htr⟩ := (ht hl).of_waiting (by simp [hx]; rfl)
    simpa [record, hm, hround, hsub, htr, List.filter_cons, Event.own] using
      (Traces.running done p : Traces L.stopping _ _ _ _)
  | result k o x hx =>
    intro hl
    obtain ⟨hm, hround, done, p, rfl, hsub, htr⟩ := (ht hl).of_running (by simp [hx]; rfl)
    simpa [record, hm, hround, hsub, htr, List.filter_cons, Event.own] using
      (Traces.ran done p o : Traces L.stopping _ _ _ _)
  | answerSilent k r x hx _ hr =>
    intro hl
    obtain ⟨hm, _, done, p, rfl, hsub, htr⟩ := (ht hl).of_ran (by simp [hx]; rfl)
    simpa [hm, hsub, htr, HandleResult.responseEvents, hr] using
      (Traces.answered done p r : Traces L.stopping _ _ _ _)
  | answer k r x hx _ hr =>
    intro hl
    obtain ⟨hm, _, done, p, rfl, hsub, htr⟩ := (ht hl).of_ran (by simp [hx]; rfl)
    simpa [record, hm, hsub, htr, List.filter_cons, Event.own, HandleResult.responseEvents, hr] using
      (Traces.answered done p r : Traces L.stopping _ _ _ _)
  | session R u hR hnot =>
    intro hl
    obtain ⟨htok, done, p, hk, hsub, htr⟩ := (ht hl).of_unapplied hR hnot
    have := (Traces.applied done p R.result : Traces L.stopping _ _ _ _)
    rw [serve_concat] at this
    simpa [record, htok, hk, hsub, htr, serveOne, HandleResult.sessionEvents_own] using this
  | extraToken R hR htwice =>
    exact fun hl => absurd htwice (hok _ (hs.round hl R hR))
  | endRound R hR happ =>
    intro hl
    obtain ⟨htok, done, p, hk, hsub, htr⟩ := (ht hl).of_applied hR happ
    simpa [htok, hk, hsub, htr] using
      (Traces.finishing done p R.result : Traces L.stopping _ _ _ _)
  | finish k x hx hround hgr hun =>
    intro hl
    obtain ⟨hm, done, hsub, htr⟩ := (ht hl).of_finishing (by simp [hx]; rfl) hround
    simpa [popped, hm, hround, hsub, htr] using (Traces.idle done : Traces L.stopping _ _ _ _)
  | wake x hx =>
    intro hl
    have := ht hl
    simpa [popped, hx] using this
  | raise => exact fun hl => by simpa using ht hl
  | release x hx =>
    intro hl
    have := ht hl
    simpa [hx] using this
  | push payload =>
    intro hl
    have := ht hl
    simpa [record, Event.own] using this
  | drop k o x hst hx =>
    intro hl
    obtain ⟨hm, hround, done, p, rfl, hsub, htr⟩ := (ht hl).of_ran (by simp [hx]; rfl)
    simpa [hm, hround, hsub, htr] using (Traces.dropped done p o hst : Traces L.stopping _ _ _ _)
  | stop => exact fun hl => (ht hl).stop
  | close => exact traced_of_dead rfl
  | lose x _ hdead => exact traced_of_dead hdead
  | _ => exact ht

end Lane
end ChatServer.Net
