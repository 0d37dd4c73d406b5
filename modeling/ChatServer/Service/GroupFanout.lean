import ChatServer.Base.Database
import ChatServer.Base.Observed
import ChatServer.Service.FreshIds
import ChatServer.Service.GroupUse

/-!
# The fan-out of a group message, when storing fails

`sendGroupMessage` stores one message for every member but the sender, each in a
transaction of its own, and stops at the first that cannot be stored. What was stored
before stays.

* `StoreAttempt` — a call of `createMessage` and what becomes of it;
* `sendGroupMessage_stops` — the code is `kOk` exactly when every message went
  through, and nothing is attempted after the first that did not;
* `group_send_whole_iff` — when a failed call leaves the tables as they were.
-/

namespace ChatServer.Service

open Base Db Codec

/-! ## Storing one message -/

/-- A call of `createMessage` and what becomes of it: without a connection, or when a
statement before `COMMIT` fails, nothing is kept. -/
structure StoreAttempt where
  message : MessageRecord
  fate : Fate RepositoryStatus
  deriving DecidableEq, Repr

/-- The message went through: it is stored, and what is stored is this message. -/
def Through (m : MessageRecord) : CreateMessageResult → Bool
  | .ok stored _ => isSameIdempotentMessage m stored
  | .failed _ => false

namespace StoreAttempt

variable (coll : Collation) (t : Tables) (a : StoreAttempt)

/-- The tables after the call, and its answer. -/
def leaves : Tables × CreateMessageResult :=
  let (t', stored) := createAlone coll t a.message
  match a.fate.deliver t (.ok (stored, t')) with
  | (.ok answer, left) => (left, answer)
  | (.error status, left) => (left, .failed status)

def through : Bool := Through a.message (a.leaves coll t).2

/-- There is no message under the client id yet. -/
def fresh : Bool := (readMessageByClientId coll t a.message).isNone

/-- The message is stored, but the answer does not arrive. -/
def Lost : Prop := (∃ status, a.fate = .unanswered status) ∧ (createAlone coll t a.message).1 ≠ t

end StoreAttempt

section

variable (coll : Collation)

/-- The tables after calls one after another. -/
def afterAttempts (t : Tables) (as : List StoreAttempt) : Tables :=
  as.foldl (fun t a => (a.leaves coll t).1) t

/-- The messages of the calls with the answers. -/
def attemptAnswers : Tables → List StoreAttempt → List (MessageRecord × CreateMessageResult)
  | _, [] => []
  | t, a :: as =>
    (a.message, (a.leaves coll t).2) :: attemptAnswers (a.leaves coll t).1 as

/-- Storing fails for a recipient although a message was new for one before it, or
its own message has been stored. -/
def Torn (t : Tables) (as : List StoreAttempt) : Prop :=
  ∃ before a after, as = before ++ a :: after ∧
    a.through coll (afterAttempts coll t before) = false ∧
    ((∃ b ∈ before, b.fresh coll t = true) ∨ a.Lost coll (afterAttempts coll t before))

end

variable {coll : Collation} {t : Tables}

/-- A message that is there already is not stored again. -/
theorem createAlone_of_found {m : MessageRecord}
    (h : (readMessageByClientId coll t m).isNone = false) : (createAlone coll t m).1 = t := by
  cases hread : readMessageByClientId coll t m with
  | none =>
    rw [hread] at h
    cases h
  | some row => rw [createAlone_of_some coll hread]

/-- A new message that is stored is this message. -/
theorem createAlone_of_fresh {m : MessageRecord}
    (h : (readMessageByClientId coll t m).isNone = true) :
    ((createAlone coll t m).1 ≠ t ∧ Through m (createAlone coll t m).2 = true) ∨
      ((createAlone coll t m).1 = t ∧ Through m (createAlone coll t m).2 = false) := by
  rw [createAlone_of_none coll (Option.isNone_iff_eq_none.mp h)]
  cases hn : numbered coll (upserted coll t m) m with
  | error status => exact .inr ⟨rfl, rfl⟩
  | ok p =>
    obtain ⟨t', q⟩ := p
    refine .inl ⟨fun heq => ?_, ?_⟩
    · obtain ⟨row, -, -, -, rfl⟩ := numbered_eq_ok hn
      have hrows : (upserted coll t m).messages ++ [insertedRow m q] = t.messages :=
        congrArg Tables.messages heq
      rw [upserted_messages] at hrows
      exact List.cons_ne_nil _ _ (List.append_right_eq_self.mp hrows)
    · show isSameIdempotentMessage m { m with sequence := q } = true
      simp [isSameIdempotentMessage]

namespace StoreAttempt

variable {a : StoreAttempt}

/-- The call is answered; or it does not go through, and its writes are dropped or its
answer is lost. -/
theorem leaves_cases (coll : Collation) (t : Tables) (a : StoreAttempt) :
    a.leaves coll t = createAlone coll t a.message ∨ a.through coll t = false ∧
      ((a.leaves coll t).1 = t ∨ (∃ status, a.fate = .unanswered status) ∧
        (a.leaves coll t).1 = (createAlone coll t a.message).1) := by
  unfold through leaves
  cases a.fate with
  | answered => exact .inl rfl
  | refused status => exact .inr ⟨rfl, .inl rfl⟩
  | aborted status => exact .inr ⟨rfl, .inl rfl⟩
  | unanswered status => exact .inr ⟨rfl, .inr ⟨⟨status, rfl⟩, rfl⟩⟩

theorem leaves_rows (coll : Collation) (t : Tables) (a : StoreAttempt) :
    (a.leaves coll t).1 = t ∨
      ∃ q, (a.leaves coll t).1.messages = t.messages ++ [insertedRow a.message q] := by
  have hrows := (createAlone_cases coll t a.message).imp_right fun h => h.imp fun _ h => h.2
  rcases leaves_cases coll t a with h | ⟨-, h | ⟨-, h⟩⟩
  · rwa [h]
  · exact .inl h
  · rwa [h]

theorem leaves_of_found (hfound : a.fresh coll t = false) : (a.leaves coll t).1 = t := by
  rcases leaves_cases coll t a with h | ⟨-, h | ⟨-, h⟩⟩
  · rw [h, createAlone_of_found hfound]
  · exact h
  · rw [h, createAlone_of_found hfound]

/-- A new message that goes through is one more row. -/
theorem leaves_ne_of_fresh (hthrough : a.through coll t = true) (hfresh : a.fresh coll t = true) :
    (a.leaves coll t).1 ≠ t := by
  rcases leaves_cases coll t a with h | ⟨h, -⟩
  · rw [through, h] at hthrough
    rw [h]
    rcases createAlone_of_fresh hfresh with ⟨hne, -⟩ | ⟨-, hfails⟩
    · exact hne
    · exact absurd (hthrough.symm.trans hfails) (by decide)
  · exact absurd (hthrough.symm.trans h) (by decide)

/-- One that does not go through leaves nothing, unless the answer was lost. -/
theorem leaves_of_not_through (hthrough : a.through coll t = false) (hlost : ¬ a.Lost coll t) :
    (a.leaves coll t).1 = t := by
  rcases leaves_cases coll t a with h | ⟨-, h | ⟨hfate, h⟩⟩
  · cases hfresh : a.fresh coll t with
    | false => exact leaves_of_found hfresh
    | true =>
      rw [through, h] at hthrough
      rw [h]
      rcases createAlone_of_fresh hfresh with ⟨-, hgoes⟩ | ⟨hsame, -⟩
      · exact absurd (hgoes.symm.trans hthrough) (by decide)
      · exact hsame
  · exact h
  · rw [h]
    by_contra hne
    exact hlost ⟨hfate, hne⟩

theorem leaves_ne_of_lost (h : a.Lost coll t) : (a.leaves coll t).1 ≠ t := by
  obtain ⟨⟨status, hfate⟩, hne⟩ := h
  unfold leaves
  rw [hfate]
  exact hne

end StoreAttempt

/-! ## Several messages -/

theorem afterAttempts_append (t : Tables) (as bs : List StoreAttempt) :
    afterAttempts coll t (as ++ bs) = afterAttempts coll (afterAttempts coll t as) bs :=
  List.foldl_append

/-- Rows are only added. -/
theorem afterAttempts_rows (coll : Collation) (t : Tables) (as : List StoreAttempt) :
    ∃ rows, (afterAttempts coll t as).messages = t.messages ++ rows := by
  induction as generalizing t with
  | nil => exact ⟨[], (List.append_nil _).symm⟩
  | cons a as ih =>
    obtain ⟨rows, hrows⟩ := ih (a.leaves coll t).1
    have hrest : (afterAttempts coll t (a :: as)).messages =
        (a.leaves coll t).1.messages ++ rows := hrows
    rcases a.leaves_rows coll t with h | ⟨q, h⟩
    · exact ⟨rows, by rw [hrest, h]⟩
    · exact ⟨insertedRow a.message q :: rows, by rw [hrest, h, List.append_assoc]; rfl⟩

/-- A call that changes the tables cannot be undone by later ones. -/
theorem messages_ne_of_leaves (a : StoreAttempt) (as : List StoreAttempt)
    (h : (a.leaves coll t).1 ≠ t) : (afterAttempts coll t (a :: as)).messages ≠ t.messages := by
  rcases a.leaves_rows coll t with hsame | ⟨q, hrow⟩
  · exact absurd hsame h
  · obtain ⟨rows, hrows⟩ := afterAttempts_rows coll (a.leaves coll t).1 as
    have hrest : (afterAttempts coll t (a :: as)).messages =
        (a.leaves coll t).1.messages ++ rows := hrows
    intro heq
    have hlength := congrArg List.length (hrest.symm.trans heq)
    rw [hrow] at hlength
    simp only [List.length_append, List.length_singleton] at hlength
    omega

/-- Messages that are there already change nothing. -/
theorem afterAttempts_of_found {as : List StoreAttempt} (h : ∀ a ∈ as, a.fresh coll t = false) :
    afterAttempts coll t as = t := by
  induction as with
  | nil => rfl
  | cons a as ih =>
    show afterAttempts coll (a.leaves coll t).1 as = t
    rw [StoreAttempt.leaves_of_found (h a List.mem_cons_self)]
    exact ih fun b hb => h b (List.mem_cons_of_mem _ hb)

/-- All of them go through, and one was new: there is a new row. -/
theorem messages_ne_of_fresh {as bs : List StoreAttempt}
    (hthrough : ∀ p ∈ attemptAnswers coll t as, Through p.1 p.2 = true)
    (hfresh : ∃ a ∈ as, a.fresh coll t = true) :
    (afterAttempts coll t (as ++ bs)).messages ≠ t.messages := by
  induction as with
  | nil =>
    obtain ⟨a, ha, -⟩ := hfresh
    exact absurd ha List.not_mem_nil
  | cons a as ih =>
    have hhead : a.through coll t = true := hthrough _ List.mem_cons_self
    cases hnew : a.fresh coll t with
    | true =>
      exact messages_ne_of_leaves a (as ++ bs) (StoreAttempt.leaves_ne_of_fresh hhead hnew)
    | false =>
      -- the tables are still the first ones
      have hsame := StoreAttempt.leaves_of_found hnew
      show (afterAttempts coll (a.leaves coll t).1 (as ++ bs)).messages ≠ _
      rw [hsame]
      refine ih (fun p hp => hthrough p (List.mem_cons_of_mem _ ?_)) ?_
      · show p ∈ attemptAnswers coll (a.leaves coll t).1 as
        rwa [hsame]
      · obtain ⟨b, hb, hb'⟩ := hfresh
        rcases List.mem_cons.mp hb with rfl | hb
        · exact absurd (hnew.symm.trans hb') (by decide)
        · exact ⟨b, hb, hb'⟩

theorem attemptAnswers_append (t : Tables) (as bs : List StoreAttempt) :
    attemptAnswers coll t (as ++ bs) =
      attemptAnswers coll t as ++ attemptAnswers coll (afterAttempts coll t as) bs := by
  induction as generalizing t with
  | nil => rfl
  | cons a as ih =>
    show _ :: attemptAnswers coll _ (as ++ bs) = _ :: (attemptAnswers coll _ as ++ _)
    rw [ih]
    rfl

theorem attemptAnswers_length (t : Tables) (as : List StoreAttempt) :
    (attemptAnswers coll t as).length = as.length := by
  induction as generalizing t with
  | nil => rfl
  | cons a as ih => exact congrArg Nat.succ (ih _)

/-! ## The loop -/

/-- The calls of `createMessage` in a run, with their answers. -/
def seeStores (s : List (MessageRecord × CreateMessageResult)) :
    Event Call → List (MessageRecord × CreateMessageResult)
  | ⟨.createMessage m, r⟩ => s ++ [(m, r)]
  | _ => s

def storesOf (τ : List (Event Call)) : List (MessageRecord × CreateMessageResult) :=
  τ.foldl seeStores []

def AllThrough (s : List (MessageRecord × CreateMessageResult)) : Prop :=
  ∀ p ∈ s, Through p.1 p.2 = true

/-- The last message did not go through, those before did. -/
def StopsAt (s : List (MessageRecord × CreateMessageResult)) : Prop :=
  ∃ before p, s = before ++ [p] ∧ AllThrough before ∧ Through p.1 p.2 = false

variable {s : List (MessageRecord × CreateMessageResult)}

theorem AllThrough.concat (h : AllThrough s) {m : MessageRecord} {r : CreateMessageResult}
    (hr : Through m r = true) : AllThrough (s ++ [(m, r)]) := by
  intro p hp
  rcases List.mem_append.mp hp with hp | hp
  · exact h p hp
  · obtain rfl := List.mem_singleton.mp hp
    exact hr

theorem deliverTo_stops (w : Wiring) (session : ConnectionSession) (req : SendGroupMessageRequest)
    (conversationId : Bytes) (now : Timestamp) (toUserId : UserId) (hs : AllThrough s) :
    (GroupService.deliverTo w session req conversationId now toUserId).Leaves seeStores
      (fun turn s => match turn with
        | .error e => e.code ≠ .ok ∧ StopsAt s
        | .ok _ => AllThrough s) s := by
  refine .call trivial fun random => .call trivial fun seq => .call trivial fun created => ?_
  cases created with
  | failed status =>
    exact .pure ⟨GroupService.mapRepositoryError_ne_ok status, s, (_, _), rfl, hs, rfl⟩
  | ok stored isNew =>
    -- another message is stored under the id, or this one
    refine .ite (fun hdiffers => .pure ?_) fun hsame => .call trivial fun conn => .pure ?_
    · refine ⟨nofun, s, (_, _), rfl, hs, ?_⟩
      rwa [Bool.not_eq_true'] at hdiffers
    · refine hs.concat ?_
      rwa [Bool.not_eq_true', Bool.not_eq_false] at hsame

theorem fanOut_stops (w : Wiring) (session : ConnectionSession) (req : SendGroupMessageRequest)
    (conversationId : Bytes) (now : Timestamp) (recipients : List UserId) (hs : AllThrough s) :
    (GroupService.fanOut w session req conversationId now recipients).Leaves seeStores
      (fun turns s => match turns with
        | .error e => e.code ≠ .ok ∧ StopsAt s
        | .ok _ => AllThrough s) s := by
  -- every turn starts with all before it gone through
  induction recipients generalizing s with
  | nil => exact .pure hs
  | cons toUserId rest ih =>
    refine .bind (deliverTo_stops w session req conversationId now toUserId hs)
      fun turn s hturn => ?_
    cases turn with
    | error e => exact .pure hturn
    | ok delivery =>
      refine .bind (ih hturn) fun others s hothers => .pure ?_
      cases others with
      | error e => exact hothers
      | ok deliveries => exact hothers

/-- The answer is `kOk` if every message went through; otherwise nothing was
attempted, or the last attempt failed. -/
theorem sendGroupMessage_stops (w : Wiring) (conn : ConnId) (req : SendGroupMessageRequest) :
    (GroupService.sendGroupMessage w conn req).Leaves seeStores
      (fun result s => result.code = .ok ∧ AllThrough s ∨
        result.code ≠ .ok ∧ (s = [] ∨ StopsAt s)) [] := by
  refine .bind (Q := fun _ s => s = []) (.call trivial fun _ => .pure rfl) fun found s hs => ?_
  -- nothing is attempted before the loop
  rw [hs]
  split
  next session =>
    split
    · exact .pure (.inr ⟨nofun, .inl rfl⟩)
    split
    · exact .pure (.inr ⟨nofun, .inl rfl⟩)
    split
    · refine .pure (.inr ⟨?_, .inl rfl⟩)
      show (if _ then _ else _ : ErrorCode) ≠ .ok
      split <;> exact nofun
    refine .call trivial fun group => .exit (.inr ⟨nofun, .inl rfl⟩) fun _ => ?_
    split
    next g _ =>
      refine .call trivial fun members => .ite (fun _ => .pure (.inr
        ⟨GroupService.mapRepositoryError_ne_ok _, .inl rfl⟩)) fun _ => ?_
      refine .exit (.inr ⟨nofun, .inl rfl⟩) fun _ => .call trivial fun now => ?_
      refine .bind (fanOut_stops w session req g.conversationId now _ fun p hp =>
        absurd hp List.not_mem_nil) fun turns s hturns => ?_
      cases turns with
      | error e => exact .pure (.inr ⟨hturns.1, .inr hturns.2⟩)
      | ok messages => exact .pure (.inl ⟨rfl, hturns⟩)
    next => exact .pure (.inr ⟨GroupService.mapRepositoryError_ne_ok _, .inl rfl⟩)
  next => exact .pure (.inr ⟨nofun, .inl rfl⟩)

/-! ## All or nothing -/

/-- An attempt that did not go through is the last, and those before it did. -/
theorem stopsAt_of_not_through {as : List StoreAttempt} {before after : List StoreAttempt}
    {a : StoreAttempt} (h : AllThrough s ∨ s = [] ∨ StopsAt s) (hs : s = attemptAnswers coll t as)
    (has : as = before ++ a :: after)
    (ha : a.through coll (afterAttempts coll t before) = false) :
    StopsAt s ∧ AllThrough (attemptAnswers coll t before) ∧ after = [] := by
  rw [has, attemptAnswers_append] at hs
  have hmem : (a.message, (a.leaves coll (afterAttempts coll t before)).2) ∈ s := by
    rw [hs]
    exact List.mem_append_right _ List.mem_cons_self
  rcases h with hall | rfl | ⟨init, p, rfl, hall, hp⟩
  · exact absurd ((hall _ hmem).symm.trans ha) (by decide)
  · exact absurd hmem List.not_mem_nil
  · -- the attempt that failed is the last one
    cases hafter : after with
    | nil =>
      rw [hafter] at hs
      obtain ⟨hinit, -⟩ := List.append_inj' hs rfl
      exact ⟨⟨init, p, rfl, hall, hp⟩, hinit ▸ hall, rfl⟩
    | cons b bs =>
      have hinit : (a.message, (a.leaves coll (afterAttempts coll t before)).2) ∈ init := by
        have hlast := congrArg List.dropLast hs
        have hne : attemptAnswers coll (afterAttempts coll t before) (a :: b :: bs) ≠ [] :=
          List.cons_ne_nil _ _
        rw [List.dropLast_concat, hafter, List.dropLast_append_of_ne_nil hne] at hlast
        rw [hlast]
        exact List.mem_append_right _ List.mem_cons_self
      exact absurd ((hall _ hinit).symm.trans ha) (by decide)

/-- The counters of a conversation. -/
def lastSeqs (coll : Collation) (t : Tables) (id : Bytes) : List Int :=
  (t.conversationsWith coll id).map (·.lastSeq)

/-- A call of `sendGroupMessage` that fails leaves the messages and the counters as
they were, if and only if the fan-out was not broken off after a message was stored:
no recipient before the failing one was without a message, and the failing one's
`COMMIT` was not carried out unanswered. -/
theorem group_send_whole_iff {w : Wiring} {conn : ConnId} {req : SendGroupMessageRequest}
    {τ : List (Event Call)} {result : SendGroupMessageResult}
    (hrun : (GroupService.sendGroupMessage w conn req).Runs τ result) {t : Tables}
    {as : List StoreAttempt} (has : storesOf τ = attemptAnswers coll t as) :
    (result.code ≠ .ok →
      (afterAttempts coll t as).messages = t.messages ∧
        ∀ id, lastSeqs coll (afterAttempts coll t as) id = lastSeqs coll t id) ↔
      ¬ Torn coll t as := by
  have hstops := (sendGroupMessage_stops w conn req).of_runs hrun
  rw [show τ.foldl seeStores [] = attemptAnswers coll t as from has] at hstops
  constructor
  · rintro hkeeps ⟨before, a, after, hsplit, hfails, hcause⟩
    have hany : AllThrough (attemptAnswers coll t as) ∨ attemptAnswers coll t as = [] ∨
        StopsAt (attemptAnswers coll t as) := hstops.imp (·.2) (·.2)
    obtain ⟨hat, hbefore, rfl⟩ := stopsAt_of_not_through hany rfl hsplit hfails
    have hcode : result.code ≠ .ok := by
      intro hok
      have hall := (hstops.resolve_right fun h => h.1 hok).2
      obtain ⟨init, p, hp, -, hno⟩ := hat
      have hyes := hall p (hp ▸ List.mem_append_right _ List.mem_cons_self)
      exact absurd (hyes.symm.trans hno) (by decide)
    have hsame := (hkeeps hcode).1
    rw [hsplit] at hsame
    rcases hcause with hfresh | hlost
    · exact messages_ne_of_fresh hbefore hfresh hsame
    · -- if nothing was new before it, the lost message is the first new row
      by_cases hfresh : ∃ b ∈ before, b.fresh coll t = true
      · exact messages_ne_of_fresh hbefore hfresh hsame
      · have hfound : ∀ b ∈ before, b.fresh coll t = false := fun b hb =>
          Bool.eq_false_of_not_eq_true fun hb' => hfresh ⟨b, hb, hb'⟩
        rw [afterAttempts_append, afterAttempts_of_found hfound] at hsame
        rw [afterAttempts_of_found hfound] at hlost
        exact messages_ne_of_leaves a [] (StoreAttempt.leaves_ne_of_lost hlost) hsame
  · intro hwhole hcode
    obtain hnone | ⟨init, p, hinit, hbefore, hfails⟩ := (hstops.resolve_left fun h => hcode h.1).2
    · have hnil : as = [] := by
        rw [← List.length_eq_zero_iff, ← @attemptAnswers_length coll t as, hnone]
        rfl
      rw [hnil]
      exact ⟨rfl, fun _ => rfl⟩
    · have hne : as ≠ [] := by
        rintro rfl
        exact absurd hinit.symm (List.append_ne_nil_of_right_ne_nil _ (List.cons_ne_nil _ _))
      obtain ⟨before, a, rfl⟩ : ∃ before a, as = before ++ [a] :=
        ⟨as.dropLast, as.getLast hne, (List.dropLast_append_getLast hne).symm⟩
      rw [attemptAnswers_append] at hinit
      obtain ⟨rfl, hp⟩ := List.append_inj' hinit rfl
      have hthrough : a.through coll (afterAttempts coll t before) = false := by
        have heq := (List.cons.inj hp).1
        rw [← heq] at hfails
        exact hfails
      have hfound : ∀ b ∈ before, b.fresh coll t = false := fun b hb =>
        Bool.eq_false_of_not_eq_true fun hb' =>
          hwhole ⟨before, a, [], rfl, hthrough, .inl ⟨b, hb, hb'⟩⟩
      have hlost : ¬ a.Lost coll (afterAttempts coll t before) := fun hlost =>
        hwhole ⟨before, a, [], rfl, hthrough, .inr hlost⟩
      have hsame : afterAttempts coll t (before ++ [a]) = t := by
        rw [afterAttempts_append]
        show (a.leaves coll (afterAttempts coll t before)).1 = t
        rw [StoreAttempt.leaves_of_not_through hthrough hlost, afterAttempts_of_found hfound]
      rw [hsame]
      exact ⟨rfl, fun _ => rfl⟩

/-! ## A fan-out that is broken off -/

/-- With two attempts, the first of which goes through without storing anything. -/
theorem Torn.lost {a b : StoreAttempt} (h : Torn coll t [a, b]) (hthrough : a.through coll t = true)
    (hfound : a.fresh coll t = false) : b.Lost coll (afterAttempts coll t [a]) := by
  obtain ⟨before, c, after, hsplit, hfails, hcause⟩ := h
  match before, hsplit with
  | [], hsplit =>
    obtain ⟨rfl, -⟩ := List.cons.inj hsplit
    exact absurd (hthrough.symm.trans hfails) (by decide)
  | [d], hsplit =>
    obtain ⟨rfl, hrest⟩ := List.cons.inj hsplit
    obtain ⟨rfl, -⟩ := List.cons.inj hrest
    rcases hcause with ⟨e, he, hfresh⟩ | hlost
    · rw [List.mem_singleton.mp he, hfound] at hfresh
      cases hfresh
    · exact hlost
  | _ :: _ :: before, hsplit =>
    have hnil := (List.cons.inj (List.cons.inj hsplit).2).2
    exact absurd hnil.symm (List.append_ne_nil_of_right_ne_nil _ (List.cons_ne_nil _ _))

def threeMembers : List GroupMemberRecord :=
  [⟨str "grp_1", 1, str "owner"⟩, ⟨str "grp_1", 2, str "member"⟩, ⟨str "grp_1", 3, str "member"⟩]

/-- The group's conversation, without messages. -/
def quietGroup : Tables where
  conversations := [⟨str "gconv_grp_1", .group, none, 0⟩]

def groupHello : SendGroupMessageRequest := ⟨str "grp_1", str "c1", str "hi"⟩

def helloTo (user : UserId) : MessageRecord :=
  GroupService.pendingMessage bareWiring aliceSession groupHello (str "gconv_grp_1")
    (buildGroupMessageId 100 1 1 user 1 5) user 100

/-- Alice sends to the group; `stored` are the answers of `createMessage`. -/
def groupAnswers (stored : UserId → CreateMessageResult) : ∀ γ, Call γ → Option γ
  | _, .getSession _ => some (some aliceSession)
  | _, .findGroup _ =>
    some { status := .ok, group := some ⟨str "grp_1", str "g", 1, str "gconv_grp_1"⟩ }
  | _, .listMembers _ => some { status := .ok, members := threeMembers }
  | _, .now => some 100
  | _, .nextRandom => some 5
  | _, .nextGroupMessageSeq => some 1
  | _, .createMessage m => some (stored m.toUserId)
  | _, .getConnectionId _ => some none
  | _, _ => none

/-- The run and what a check says of it. -/
theorem runs_of_check {stored : UserId → CreateMessageResult}
    {check : List (Event Call) → SendGroupMessageResult → Bool}
    (h : (((GroupService.sendGroupMessage bareWiring 7 groupHello).trace (groupAnswers stored)).any
      fun p => check p.1 p.2) = true) :
    ∃ τ result, (GroupService.sendGroupMessage bareWiring 7 groupHello).Runs τ result ∧
      check τ result = true := by
  obtain ⟨⟨τ, result⟩, htrace, hcheck⟩ := (Option.any_eq_true _ _).mp h
  exact ⟨τ, result, Prog.runs_of_trace htrace, hcheck⟩

/-- The message to user 2 has been stored before. -/
def halfSent : Tables := afterAttempts id quietGroup [⟨helloTo 2, .answered⟩]

def retried : List StoreAttempt := [⟨helloTo 2, .answered⟩, ⟨helloTo 3, .refused .insertFailed⟩]

/-- The call is made again and finds the message to user 2; that to user 3 is refused
once more, and the tables stay as they are. -/
theorem group_send_whole_retried :
    ∃ τ result, (GroupService.sendGroupMessage bareWiring 7 groupHello).Runs τ result ∧
      result.code = .dbInsertFailed ∧ halfSent.messages = [{ helloTo 2 with sequence := 1 }] ∧
      (afterAttempts id halfSent retried).messages = halfSent.messages := by
  obtain ⟨τ, result, hrun, hcheck⟩ := @runs_of_check (fun u =>
      if u = 3 then .failed .insertFailed else .ok { helloTo u with sequence := 1 } false)
    (fun τ r => decide (storesOf τ = attemptAnswers id halfSent retried ∧
      r.code = .dbInsertFailed)) (by decide +kernel)
  obtain ⟨hstores, hcode⟩ := of_decide_eq_true hcheck
  have hwhole : ¬ Torn id halfSent retried := by
    intro htorn
    obtain ⟨⟨status, hfate⟩, -⟩ := htorn.lost (by decide +kernel) (by decide +kernel)
    cases hfate
  exact ⟨τ, result, hrun, hcode, by decide +kernel,
    ((group_send_whole_iff hrun hstores).mpr hwhole (by rw [hcode]; decide)).1⟩

/-- The message to user 2 is stored, that to user 3 is refused: the sender is told
that the message could not be stored, and user 2 has it. -/
theorem group_send_torn :
    ∃ τ result, (GroupService.sendGroupMessage bareWiring 7 groupHello).Runs τ result ∧
      storesOf τ = attemptAnswers id quietGroup
        [⟨helloTo 2, .answered⟩, ⟨helloTo 3, .refused .insertFailed⟩] ∧
      result.code = .dbInsertFailed ∧
      (afterAttempts id quietGroup
        [⟨helloTo 2, .answered⟩, ⟨helloTo 3, .refused .insertFailed⟩]).messages =
        [{ helloTo 2 with sequence := 1 }] ∧
      lastSeqs id (afterAttempts id quietGroup
        [⟨helloTo 2, .answered⟩, ⟨helloTo 3, .refused .insertFailed⟩]) (str "gconv_grp_1") = [1] := by
  obtain ⟨τ, result, hrun, hcheck⟩ := @runs_of_check (fun u =>
      if u = 3 then .failed .insertFailed else .ok { helloTo u with sequence := 1 } true)
    (fun τ r => decide (storesOf τ = attemptAnswers id quietGroup
      [⟨helloTo 2, .answered⟩, ⟨helloTo 3, .refused .insertFailed⟩] ∧ r.code = .dbInsertFailed))
    (by decide +kernel)
  obtain ⟨hstores, hcode⟩ := of_decide_eq_true hcheck
  exact ⟨τ, result, hrun, hstores, hcode, by decide +kernel, by decide +kernel⟩

end ChatServer.Service
