import ChatServer.Stream.PushStream

/-!
# What the push stream guarantees

* `delivered_at_most_once` — two deliveries of one message are a lifetime of
  the dedup key apart, whatever fails;
* `acked_entries_served` — an acknowledged entry was served, if the dedup key is
  never left behind by something else than a delivery;
  `acked_entry_suppressed` is a run in which it is.
-/

namespace ChatServer.Stream

open Redis Service

namespace PushStream

variable {cfg : RedisConfig} {s s' : PushStream}

theorem deliveryDedupKey_injective (cfg : RedisConfig) :
    Function.Injective (deliveryDedupKey cfg) := fun _ _ h => List.append_cancel_left h

theorem setKey_self (s : PushStream) (m : Bytes) (expires : Option Nat) :
    (s.setKey cfg m expires).dedup (deliveryDedupKey cfg m) = expires :=
  Function.update_self ..

variable {m : Bytes} {entry : StreamEntry} {event : RemotePushEvent} {expires : Nat}
  {rest : List StreamEntry} {reply : Reply}

theorem setKey_of_ne (s : PushStream) {m' : Bytes} (h : m' ≠ m) (expires : Option Nat) :
    (s.setKey cfg m expires).dedup (deliveryDedupKey cfg m') =
      s.dedup (deliveryDedupKey cfg m') :=
  Function.update_of_ne (fun heq => h (deliveryDedupKey_injective cfg heq)) ..

/-- A key that is not there any more has expired. -/
theorem le_now_of_not_keyLive (h : s.keyLive cfg m = false) {e : Nat}
    (he : s.dedup (deliveryDedupKey cfg m) = some e) : e ≤ s.now := by
  simpa [keyLive, he] using h

/-! ## At most one delivery -/

/-- A later delivery of the same message comes after the key of the earlier one
has expired. -/
def Spaced (a b : CallbackRecord) : Prop :=
  a.messageId = b.messageId → a.outcome = .delivered → b.outcome = .delivered →
    a.expires ≤ b.returned

/-- The keys of all deliveries of the message have expired. -/
def Past (s : PushStream) (m : Bytes) : Prop :=
  ∀ a ∈ s.callbacks, a.messageId = m → a.outcome = .delivered → a.expires ≤ s.now

/-- While an entry is served, earlier deliveries of its message are past. -/
def Busy (cfg : RedisConfig) (s : PushStream) : Consumer → Prop
  | .delivering _ event expires _ =>
    s.dedup (deliveryDedupKey cfg event.messageId) = some expires ∧ s.Past event.messageId
  | .releasing _ event _ => s.Past event.messageId
  | _ => True

structure AtMostOnce (cfg : RedisConfig) (s : PushStream) : Prop where
  spaced : s.callbacks.Pairwise Spaced
  /-- the key of a delivery is there until it expires -/
  held : ∀ a ∈ s.callbacks, a.outcome = .delivered → a.expires ≤ s.now ∨
    ∃ e, s.dedup (deliveryDedupKey cfg a.messageId) = some e ∧ a.expires ≤ e
  busy : Busy cfg s s.consumer

/-- Nothing happens to keys and deliveries. -/
theorem AtMostOnce.frame (h : AtMostOnce cfg s) (hcallbacks : s'.callbacks = s.callbacks)
    (hdedup : s'.dedup = s.dedup) (hnow : s'.now = s.now) (hbusy : Busy cfg s' s'.consumer) :
    AtMostOnce cfg s' := by
  refine ⟨hcallbacks ▸ h.spaced, ?_, hbusy⟩
  rw [hcallbacks, hdedup, hnow]
  exact h.held

/-- A free key has no delivery that is not past. -/
theorem AtMostOnce.past (h : AtMostOnce cfg s) (hfree : s.keyLive cfg m = false) : s.Past m := by
  intro a ha hm hdelivered
  rcases h.held a ha hdelivered with hpast | ⟨e, he, hle⟩
  · exact hpast
  · exact hle.trans (le_now_of_not_keyLive hfree (hm ▸ he))

theorem AtMostOnce.setKey (h : AtMostOnce cfg s) (hpast : s.Past m) (expires : Option Nat)
    (c : Consumer) (hbusy : Busy cfg (s.setKey cfg m expires) c) :
    AtMostOnce cfg { s.setKey cfg m expires with consumer := c } := by
  refine ⟨h.spaced, fun a ha hdelivered => ?_, ?_⟩
  · by_cases hm : a.messageId = m
    · exact .inl (hpast a ha hm hdelivered)
    · rcases h.held a ha hdelivered with hold | ⟨e, he, hle⟩
      · exact .inl hold
      · exact .inr ⟨e, (setKey_of_ne s hm expires).trans he, hle⟩
  · cases c with
    | delivering entry event expires rest => exact hbusy
    | releasing entry event rest => exact hbusy
    | _ => trivial

theorem AtMostOnce.acquire (h : AtMostOnce cfg s) (entry : StreamEntry) (event : RemotePushEvent)
    (rest : List StreamEntry) (reply : Reply) :
    AtMostOnce cfg (s.acquire cfg entry event rest reply) := by
  unfold PushStream.acquire
  split
  · refine h.frame rfl rfl rfl ?_
    show Busy cfg _ (if _ then _ else _)
    split <;> trivial
  · rename_i hfree
    have hpast := h.past (Bool.eq_false_iff.mpr hfree)
    split
    · refine h.setKey hpast _ _ ?_
      split
      · exact ⟨setKey_self s _ _, hpast⟩
      · trivial
    · exact h.frame rfl rfl rfl trivial

theorem AtMostOnce.deliver (h : AtMostOnce cfg s)
    (hconsumer : s.consumer = .delivering entry event expires rest)
    (outcome : RemoteDeliveryOutcome) :
    AtMostOnce cfg (s.deliver entry event expires rest outcome) := by
  have hbusy := h.busy
  rw [hconsumer] at hbusy
  obtain ⟨hkey, hpast⟩ := hbusy
  refine ⟨?_, fun a ha hdelivered => ?_, ?_⟩
  · refine List.pairwise_append.mpr ⟨h.spaced, List.pairwise_singleton _ _, fun a ha b hb => ?_⟩
    rw [List.mem_singleton.mp hb]
    intro hm hdelivered _
    exact hpast a ha hm hdelivered
  · rcases List.mem_append.mp ha with hold | hnew
    · exact h.held a hold hdelivered
    · rw [List.mem_singleton.mp hnew]
      exact .inr ⟨expires, hkey, le_rfl⟩
  · show Busy cfg _ (if _ then _ else _)
    split
    · rename_i hretry
      intro a ha hm hdelivered
      rcases List.mem_append.mp ha with hold | hnew
      · exact hpast a hold hm hdelivered
      · rw [List.mem_singleton.mp hnew, hretry] at hdelivered
        cases hdelivered
    · trivial

theorem AtMostOnce.tick (h : AtMostOnce cfg s) (seconds : Nat) :
    AtMostOnce cfg { s with now := s.now + seconds } := by
  have hpast : ∀ m, s.Past m → Past { s with now := s.now + seconds } m :=
    fun m hm a ha heq hdelivered => (hm a ha heq hdelivered).trans (Nat.le_add_right _ _)
  refine ⟨h.spaced, fun a ha hdelivered => ?_, ?_⟩
  · rcases h.held a ha hdelivered with hold | hkey
    · exact .inl (hold.trans (Nat.le_add_right _ _))
    · exact .inr hkey
  · have hbusy := h.busy
    show Busy cfg _ s.consumer
    cases hconsumer : s.consumer with
    | delivering entry event expires rest =>
      rw [hconsumer] at hbusy
      exact ⟨hbusy.1, hpast _ hbusy.2⟩
    | releasing entry event rest =>
      rw [hconsumer] at hbusy
      exact hpast _ hbusy
    | _ => trivial

theorem AtMostOnce.command (h : AtMostOnce cfg s) (hstep : s.command cfg reply = some s') :
    AtMostOnce cfg s' := by
  unfold PushStream.command at hstep
  split at hstep
  case h_1 claimed _ =>
    obtain rfl := Option.some.inj hstep
    unfold readNew
    refine h.frame ?_ ?_ ?_ trivial <;> (simp only; split <;> rfl)
  case h_2 entry rest _ =>
    obtain rfl := Option.some.inj hstep
    refine h.frame rfl rfl rfl ?_
    show Busy cfg _ (if _ then _ else _)
    split <;> trivial
  case h_3 entry event rest _ =>
    obtain rfl := Option.some.inj hstep
    exact h.acquire entry event rest reply
  case h_4 entry event rest hconsumer =>
    obtain rfl := Option.some.inj hstep
    have hbusy := h.busy
    rw [hconsumer] at hbusy
    unfold release
    split
    · exact h.setKey hbusy none _ trivial
    · exact h.frame rfl rfl rfl trivial
  case h_5 entry rest _ =>
    obtain rfl := Option.some.inj hstep
    exact h.frame rfl rfl rfl trivial
  all_goals cases hstep

theorem inductive_atMostOnce (cfg : RedisConfig) :
    (lts cfg).Inductive (fun _ _ => True) (AtMostOnce cfg) where
  init s hs := by
    obtain ⟨-, -, -, -, -, hconsumer, hcallbacks, -⟩ := hs
    refine ⟨by rw [hcallbacks]; exact .nil, fun a ha => ?_, by rw [hconsumer]; trivial⟩
    rw [hcallbacks] at ha
    cases ha
  step s l s' h _ hstep := by
    cases l with
    | tick seconds =>
      obtain rfl := Option.some.inj hstep
      exact h.tick seconds
    | xadd fields =>
      obtain rfl := Option.some.inj hstep
      refine h.frame rfl rfl rfl ?_
      exact h.busy
    | pollOnce | claim ids =>
      obtain ⟨-, ⟨⟩⟩ := Option.ite_none_right_eq_some.mp hstep
      exact h.frame rfl rfl rfl trivial
    | command reply => exact h.command hstep
    | nextEntry =>
      simp only [lts, PushStream.step] at hstep
      split at hstep
      · rename_i rest _
        obtain rfl := Option.some.inj hstep
        unfold PushStream.nextEntry
        split
        · exact h.frame rfl rfl rfl trivial
        · split
          · exact h.frame rfl rfl rfl trivial
          · refine h.frame rfl rfl rfl ?_
            show Busy cfg _ (if _ then _ else _)
            split <;> trivial
      · cases hstep
    | callback outcome =>
      simp only [lts, PushStream.step] at hstep
      split at hstep
      · rename_i hconsumer
        obtain rfl := Option.some.inj hstep
        exact h.deliver hconsumer outcome
      · cases hstep

/-! ## Entries stay pending -/

/-- The entries the consumer has in hand. -/
def inHand : Consumer → List StreamEntry
  | .idle | .claiming => []
  | .reading claimed => claimed
  | .processing rest => rest
  | .moving entry rest => entry :: rest
  | .acquiring entry _ rest => entry :: rest
  | .delivering entry _ _ rest => entry :: rest
  | .releasing entry _ rest => entry :: rest
  | .acking entry rest => entry :: rest

/-- The entry is pending, or an `XACK` was sent for it. -/
def Kept (s : PushStream) (streamId : Nat) : Prop :=
  streamId ∈ s.pending ∨ ∃ e ∈ s.acked, e.streamId = streamId

structure Tracked (s : PushStream) : Prop where
  inHand : ∀ e ∈ inHand s.consumer, s.Kept e.streamId
  called : ∀ a ∈ s.callbacks, s.Kept a.streamId

/-- Nothing is lost when an operation only adds to what is kept. -/
theorem Tracked.mono (h : Tracked s) (hkept : ∀ i, s.Kept i → s'.Kept i)
    (hhand : ∀ e ∈ PushStream.inHand s'.consumer, e ∈ PushStream.inHand s.consumer)
    (hcalled : ∀ a ∈ s'.callbacks, a ∈ s.callbacks ∨
      ∃ e ∈ PushStream.inHand s.consumer, e.streamId = a.streamId) : Tracked s' := by
  refine ⟨fun e he => hkept _ (h.inHand e (hhand e he)), fun a ha => hkept _ ?_⟩
  rcases hcalled a ha with hold | ⟨e, he, hid⟩
  · exact h.called a hold
  · exact hid ▸ h.inHand e he

/-- The consumer moves on with what it has in hand. -/
theorem Tracked.goto (h : Tracked s) (hpending : s'.pending = s.pending)
    (hacked : s'.acked = s.acked) (hcallbacks : s'.callbacks = s.callbacks)
    (hhand : ∀ e ∈ PushStream.inHand s'.consumer, e ∈ PushStream.inHand s.consumer) :
    Tracked s' := by
  refine h.mono (fun i hi => ?_) hhand fun a ha => .inl (hcallbacks ▸ ha)
  rw [Kept, hpending, hacked]
  exact hi

theorem Tracked.readNew (h : Tracked s) {claimed : List StreamEntry}
    (hconsumer : s.consumer = .reading claimed) (reply : Reply) :
    Tracked (s.readNew claimed reply) := by
  have hclaimed : ∀ e ∈ claimed, s.Kept e.streamId := fun e he =>
    h.inHand e (by rw [hconsumer]; exact he)
  have hkept : ∀ i, s.Kept i → (s.readNew claimed reply).Kept i := by
    rintro i (hi | hi)
    · refine .inl ?_
      unfold PushStream.readNew
      simp only
      split
      · exact List.mem_append_left _ hi
      · exact hi
    · refine .inr ?_
      unfold PushStream.readNew
      simp only
      split <;> exact hi
  have hcallbacks : (s.readNew claimed reply).callbacks = s.callbacks := by
    unfold PushStream.readNew
    simp only
    split <;> rfl
  refine ⟨fun e he => ?_, fun a ha => hkept _ (h.called a (hcallbacks ▸ ha))⟩
  rcases List.mem_append.mp (show e ∈ claimed ++ _ from he) with hold | hnew
  · exact hkept _ (hclaimed e hold)
  · -- an answered read made its entries pending
    cases reply with
    | failed effect => cases hnew
    | answered => exact .inl (List.mem_append_right _ (List.mem_map.mpr ⟨e, hnew, rfl⟩))

theorem Tracked.ack (h : Tracked s) (hconsumer : s.consumer = .acking entry rest) (reply : Reply) :
    Tracked (s.ack entry rest reply) := by
  refine h.mono (fun i hi => ?_) (fun e he => ?_) fun a ha => .inl ha
  · rcases hi with hi | ⟨e, he, hid⟩
    · by_cases hself : i = entry.streamId
      · exact .inr ⟨entry, List.mem_append_right _ (List.mem_singleton_self _), hself.symm⟩
      · refine .inl ?_
        unfold PushStream.ack
        simp only
        split
        · exact List.mem_filter.mpr ⟨hi, decide_eq_true hself⟩
        · exact hi
    · exact .inr ⟨e, List.mem_append_left _ he, hid⟩
  · rw [hconsumer]
    exact List.mem_cons_of_mem _ he

theorem Tracked.command (h : Tracked s) (hstep : s.command cfg reply = some s') : Tracked s' := by
  -- each command keeps the rest, and the entry itself if it is not done with
  have hsub : ∀ {c : Prop} [Decidable c] {e entry : StreamEntry} {rest : List StreamEntry}
      {kept : Consumer}, PushStream.inHand kept = entry :: rest →
      e ∈ PushStream.inHand (if c then kept else .processing rest) → e ∈ entry :: rest := by
    intro c _ e entry rest kept hkept he
    split at he
    · rwa [hkept] at he
    · exact List.mem_cons_of_mem _ he
  unfold PushStream.command at hstep
  split at hstep
  case h_1 claimed hconsumer =>
    obtain rfl := Option.some.inj hstep
    exact h.readNew hconsumer reply
  case h_2 entry rest hconsumer =>
    obtain rfl := Option.some.inj hstep
    refine h.goto rfl rfl rfl fun e he => ?_
    rw [hconsumer]
    exact hsub rfl he
  case h_3 entry event rest hconsumer =>
    obtain rfl := Option.some.inj hstep
    unfold acquire
    split
    · refine h.goto rfl rfl rfl fun e he => ?_
      rw [hconsumer]
      exact hsub rfl he
    · split
      · refine h.goto rfl rfl rfl fun e he => ?_
        rw [hconsumer]
        exact hsub rfl he
      · refine h.goto rfl rfl rfl fun e he => ?_
        rw [hconsumer]
        exact List.mem_cons_of_mem _ he
  case h_4 entry event rest hconsumer =>
    obtain rfl := Option.some.inj hstep
    unfold release
    split <;> refine h.goto rfl rfl rfl fun e he => ?_
    all_goals
      rw [hconsumer]
      exact List.mem_cons_of_mem _ he
  case h_5 entry rest hconsumer =>
    obtain rfl := Option.some.inj hstep
    exact h.ack hconsumer reply
  all_goals cases hstep

theorem Tracked.nextEntry (h : Tracked s) (hconsumer : s.consumer = .processing rest) :
    Tracked (s.nextEntry rest) := by
  unfold PushStream.nextEntry
  split
  · exact h.goto rfl rfl rfl fun e he => nomatch he
  · split
    · refine h.goto rfl rfl rfl fun e he => ?_
      rw [hconsumer]
      exact he
    · refine h.goto rfl rfl rfl fun e he => ?_
      rw [hconsumer]
      simp only at he
      split at he
      · exact he
      · exact List.mem_cons_of_mem _ he

theorem inductive_tracked (cfg : RedisConfig) :
    (lts cfg).Inductive (fun _ _ => True) Tracked where
  init s hs := by
    obtain ⟨-, -, -, -, -, hconsumer, hcallbacks, -⟩ := hs
    refine ⟨fun e he => ?_, fun a ha => ?_⟩
    · rw [hconsumer] at he
      cases he
    · rw [hcallbacks] at ha
      cases ha
  step s l s' h _ hstep := by
    cases l with
    | tick seconds | xadd fields =>
      obtain rfl := Option.some.inj hstep
      exact ⟨h.inHand, h.called⟩
    | pollOnce =>
      obtain ⟨-, ⟨⟩⟩ := Option.ite_none_right_eq_some.mp hstep
      exact ⟨fun e he => (nomatch he), h.called⟩
    | claim ids =>
      obtain ⟨⟨-, -, hpending⟩, ⟨⟩⟩ := Option.ite_none_right_eq_some.mp hstep
      refine ⟨fun e he => .inl ?_, h.called⟩
      exact hpending _ (of_decide_eq_true (List.mem_filter.mp he).2)
    | command reply => exact h.command hstep
    | nextEntry =>
      simp only [lts, PushStream.step] at hstep
      split at hstep
      · rename_i hconsumer
        obtain rfl := Option.some.inj hstep
        exact h.nextEntry hconsumer
      · cases hstep
    | callback outcome =>
      simp only [lts, PushStream.step] at hstep
      split at hstep
      · rename_i entry event expires rest hconsumer
        obtain rfl := Option.some.inj hstep
        refine h.mono (fun _ hi => hi) (fun e he => ?_) fun a ha => ?_
        · rw [hconsumer]
          simp only [PushStream.deliver] at he
          split at he <;> exact he
        · rcases List.mem_append.mp ha with hold | hnew
          · exact .inl hold
          · refine .inr ⟨entry, ?_, ?_⟩
            · rw [hconsumer]
              exact List.mem_cons_self
            · rw [List.mem_singleton.mp hnew]
      · cases hstep

/-! ## Entries are served -/

/-- What justifies an `XACK`. -/
def Served (s : PushStream) (entry : StreamEntry) : Prop :=
  (decodePushEvent entry = none ∧ entry.streamId ∈ s.deadLetters) ∨
  (∃ a ∈ s.callbacks, a.streamId = entry.streamId ∧ a.outcome ≠ .retry) ∨
  ∃ event, decodePushEvent entry = some event ∧
    ∃ a ∈ s.callbacks, a.messageId = event.messageId ∧ a.outcome = .delivered

/-- Every invalid target of the message whose key has not expired was found for
this very entry. -/
def Unshared (s : PushStream) (entry : StreamEntry) (messageId : Bytes) : Prop :=
  ∀ a ∈ s.callbacks, a.messageId = messageId → a.outcome = .invalidTarget → s.now < a.expires →
    a.streamId = entry.streamId

instance (s : PushStream) (entry : StreamEntry) (messageId : Bytes) :
    Decidable (s.Unshared entry messageId) := inferInstanceAs (Decidable (∀ a ∈ _, _))

/-- The dedup key is not left behind: a `SET` without an answer has not set it, a
`DEL` removes it, and an entry is not taken up while the key stands for the
invalid target of another entry. -/
def Clean (cfg : RedisConfig) (s : PushStream) : Label → Prop
  | .command reply =>
    match s.consumer with
    | .acquiring _ event _ => s.keyLive cfg event.messageId = true ∨ reply ≠ .failed true
    | .releasing _ _ _ => reply.effective = true
    | _ => True
  | .nextEntry =>
    match s.consumer with
    | .processing (entry :: _) =>
      match decodePushEvent entry with
      | some event => s.Unshared entry event.messageId
      | none => True
    | _ => True
  | _ => True

instance (cfg : RedisConfig) (s : PushStream) (l : Label) : Decidable (s.Clean cfg l) := by
  unfold Clean
  split
  · split <;> infer_instance
  · split
    · split <;> infer_instance
    · infer_instance
  · infer_instance

/-- What the consumer knows about the entry it serves. -/
def Serves (cfg : RedisConfig) (s : PushStream) : Consumer → Prop
  | .moving entry _ => decodePushEvent entry = none
  | .acquiring entry event _ =>
    decodePushEvent entry = some event ∧ s.Unshared entry event.messageId
  | .delivering _ event expires _ =>
    s.dedup (deliveryDedupKey cfg event.messageId) = some expires
  | .acking entry _ => s.Served entry
  | _ => True

/-- The message whose key the consumer has set itself. -/
def holds : Consumer → Option Bytes
  | .delivering _ event _ _ => some event.messageId
  | .releasing _ event _ => some event.messageId
  | _ => none

/-- A callback for the message, under a key with this expiry, was not to be tried
again. -/
def Answered (s : PushStream) (m : Bytes) (expires : Nat) : Prop :=
  ∃ a ∈ s.callbacks, a.messageId = m ∧ a.outcome ≠ .retry ∧ a.expires = expires

structure Lawful (cfg : RedisConfig) (s : PushStream) : Prop where
  acked : ∀ e ∈ s.acked, s.Served e
  serves : s.Serves cfg s.consumer
  /-- a key stands for an answered callback, or the consumer holds it -/
  keys : ∀ m expires, s.dedup (deliveryDedupKey cfg m) = some expires →
    s.Answered m expires ∨ holds s.consumer = some m

theorem Served.mono (h : s.Served entry) (hcallbacks : ∀ a ∈ s.callbacks, a ∈ s'.callbacks)
    (hdead : ∀ i ∈ s.deadLetters, i ∈ s'.deadLetters) : s'.Served entry := by
  rcases h with ⟨hbad, hmoved⟩ | ⟨a, ha, hown⟩ | ⟨event, hevent, a, ha, hsame⟩
  · exact .inl ⟨hbad, hdead _ hmoved⟩
  · exact .inr (.inl ⟨a, hcallbacks a ha, hown⟩)
  · exact .inr (.inr ⟨event, hevent, a, hcallbacks a ha, hsame⟩)

/-- With time keys expire, and nothing else changes. -/
theorem Serves.tick {c : Consumer} (h : s.Serves cfg c) (seconds : Nat) :
    Serves cfg { s with now := s.now + seconds } c := by
  cases c with
  | acquiring entry event rest =>
    refine ⟨h.1, fun a ha hm ho hbefore => h.2 a ha hm ho ?_⟩
    exact Nat.lt_of_le_of_lt (Nat.le_add_right _ _) hbefore
  | _ => exact h

/-- A key nobody holds stands for an answered callback. -/
theorem Lawful.answered (h : Lawful cfg s)
    (hkey : s.dedup (deliveryDedupKey cfg m) = some expires) (hheld : holds s.consumer ≠ some m) :
    s.Answered m expires :=
  (h.keys m expires hkey).resolve_right hheld

/-- Only the consumer moves on, and it lets go of no key. -/
theorem Lawful.goto (h : Lawful cfg s) (hacked : s'.acked = s.acked)
    (hdead : s'.deadLetters = s.deadLetters) (hcallbacks : s'.callbacks = s.callbacks)
    (hdedup : s'.dedup = s.dedup) (hserves : s'.Serves cfg s'.consumer)
    (hholds : holds s.consumer = none ∨ holds s'.consumer = holds s.consumer) : Lawful cfg s' := by
  refine ⟨fun e he => ?_, hserves, fun m expires hm => ?_⟩
  · exact (h.acked e (hacked ▸ he)).mono (fun a ha => hcallbacks ▸ ha) fun i hi => hdead ▸ hi
  · rw [Answered, hcallbacks]
    rcases h.keys m expires (hdedup ▸ hm) with hanswered | hheld
    · exact .inl hanswered
    · rcases hholds with hnone | hsame
      · rw [hnone] at hheld
        cases hheld
      · exact .inr (hsame.trans hheld)

/-- A key that exists justifies acknowledging the entry that found it. -/
theorem Lawful.served_of_key (h : Lawful cfg s)
    (hconsumer : s.consumer = .acquiring entry event rest)
    (hlive : s.keyLive cfg event.messageId = true) : s.Served entry := by
  have hserves := h.serves
  rw [hconsumer] at hserves
  obtain ⟨hdecode, hunshared⟩ := hserves
  have hfree : holds s.consumer ≠ some event.messageId := by
    rw [hconsumer]
    exact fun hheld => nomatch hheld
  cases hkey : s.dedup (deliveryDedupKey cfg event.messageId) with
  | none => simp [keyLive, hkey] at hlive
  | some expires =>
    have hbefore : s.now < expires := by simpa [keyLive, hkey] using hlive
    obtain ⟨a, ha, hm, houtcome, rfl⟩ := h.answered hkey hfree
    cases ho : a.outcome with
    | delivered => exact .inr (.inr ⟨event, hdecode, a, ha, hm, ho⟩)
    | invalidTarget => exact .inr (.inl ⟨a, ha, hunshared a ha hm ho hbefore, houtcome⟩)
    | retry => exact absurd ho houtcome

theorem Lawful.acquire (h : Lawful cfg s) (hconsumer : s.consumer = .acquiring entry event rest)
    (hclean : s.keyLive cfg event.messageId = true ∨ reply ≠ .failed true) :
    Lawful cfg (s.acquire cfg entry event rest reply) := by
  have hnone : holds s.consumer = none := by rw [hconsumer]; rfl
  unfold PushStream.acquire
  split
  · rename_i hlive
    refine h.goto rfl rfl rfl rfl ?_ (.inl hnone)
    show Serves _ _ (if _ then _ else _)
    split
    · exact h.served_of_key hconsumer hlive
    · trivial
  · rename_i hfree
    cases reply with
    | failed effect =>
      cases effect with
      | true => exact absurd rfl (hclean.resolve_left hfree)
      | false => exact h.goto rfl rfl rfl rfl trivial (.inl hnone)
    | answered =>
      refine ⟨h.acked, setKey_self s _ _, fun m expires hm => ?_⟩
      by_cases hself : m = event.messageId
      · exact .inr (congrArg some hself.symm)
      · refine .inl (h.answered ?_ (by rw [hnone]; exact fun hheld => nomatch hheld))
        exact (setKey_of_ne s hself _).symm.trans hm

theorem Lawful.release (h : Lawful cfg s) (hconsumer : s.consumer = .releasing entry event rest)
    (heffective : reply.effective = true) : Lawful cfg (s.release cfg event rest reply) := by
  unfold PushStream.release
  rw [if_pos heffective]
  refine ⟨h.acked, trivial, fun m expires hm => ?_⟩
  by_cases hself : m = event.messageId
  · subst hself
    cases (setKey_self s _ none).symm.trans hm
  · refine .inl (h.answered ?_ fun hheld => hself ?_)
    · exact (setKey_of_ne s hself _).symm.trans hm
    · rw [hconsumer] at hheld
      exact (Option.some.inj hheld).symm

theorem Lawful.deliver (h : Lawful cfg s)
    (hconsumer : s.consumer = .delivering entry event expires rest)
    (outcome : RemoteDeliveryOutcome) :
    Lawful cfg (s.deliver entry event expires rest outcome) := by
  have hold : ∀ a ∈ s.callbacks, a ∈ (s.deliver entry event expires rest outcome).callbacks :=
    fun a ha => List.mem_append_left _ ha
  have hnew : (⟨entry.streamId, event.messageId, outcome, s.now, expires⟩ : CallbackRecord) ∈
      (s.deliver entry event expires rest outcome).callbacks :=
    List.mem_append_right _ (List.mem_singleton_self _)
  have hserves := h.serves
  rw [hconsumer] at hserves
  refine ⟨fun e he => (h.acked e he).mono hold fun _ hi => hi, ?_, fun m expires' hm => ?_⟩
  · show Serves _ _ (if _ then _ else _)
    split
    · trivial
    · rename_i hanswered
      exact .inr (.inl ⟨_, hnew, rfl, hanswered⟩)
  · rcases h.keys m expires' hm with ⟨a, ha, hown⟩ | hheld
    · exact .inl ⟨a, hold a ha, hown⟩
    · -- the key is that of the entry: it is answered now, or still held
      rw [hconsumer] at hheld
      obtain rfl := Option.some.inj hheld
      by_cases hretry : outcome = .retry
      · refine .inr ?_
        show holds (if _ then _ else _) = _
        rw [if_pos hretry]
        rfl
      · exact .inl ⟨_, hnew, rfl, hretry, Option.some.inj (hserves.symm.trans hm)⟩

theorem Lawful.moveToDeadLetter (h : Lawful cfg s) (hconsumer : s.consumer = .moving entry rest)
    (reply : Reply) : Lawful cfg (s.moveToDeadLetter entry rest reply) := by
  have hserves := h.serves
  rw [hconsumer] at hserves
  have hdead : ∀ i ∈ s.deadLetters, i ∈ (s.moveToDeadLetter entry rest reply).deadLetters := by
    intro i hi
    unfold PushStream.moveToDeadLetter
    simp only
    split
    · exact List.mem_append_left _ hi
    · exact hi
  refine ⟨fun e he => (h.acked e he).mono (fun _ ha => ha) hdead, ?_, fun m expires hm => ?_⟩
  · show Serves _ _ (if _ then _ else _)
    split
    · rename_i hanswered
      subst hanswered
      exact .inl ⟨hserves, List.mem_append_right _ (List.mem_singleton_self _)⟩
    · trivial
  · exact .inl (h.answered hm (by rw [hconsumer]; exact fun hheld => nomatch hheld))

theorem Lawful.ack (h : Lawful cfg s) (hconsumer : s.consumer = .acking entry rest)
    (reply : Reply) : Lawful cfg (s.ack entry rest reply) := by
  have hserves := h.serves
  rw [hconsumer] at hserves
  refine ⟨fun e he => ?_, trivial, fun m expires hm => ?_⟩
  · rcases List.mem_append.mp he with hold | hself
    · exact h.acked e hold
    · rw [List.mem_singleton.mp hself]
      exact hserves
  · exact .inl (h.answered hm (by rw [hconsumer]; exact fun hheld => nomatch hheld))

theorem Lawful.command (h : Lawful cfg s) (hclean : s.Clean cfg (.command reply))
    (hstep : s.command cfg reply = some s') : Lawful cfg s' := by
  unfold PushStream.command at hstep
  unfold Clean at hclean
  split at hstep
  case h_1 claimed hconsumer =>
    obtain rfl := Option.some.inj hstep
    have hnone : holds s.consumer = none := by rw [hconsumer]; rfl
    unfold readNew
    refine h.goto ?_ ?_ ?_ ?_ trivial (.inl hnone) <;> (simp only; split <;> rfl)
  case h_2 entry rest hconsumer =>
    obtain rfl := Option.some.inj hstep
    exact h.moveToDeadLetter hconsumer reply
  case h_3 entry event rest hconsumer =>
    obtain rfl := Option.some.inj hstep
    simp only [hconsumer] at hclean
    exact h.acquire hconsumer hclean
  case h_4 entry event rest hconsumer =>
    obtain rfl := Option.some.inj hstep
    simp only [hconsumer] at hclean
    exact h.release hconsumer hclean
  case h_5 entry rest hconsumer =>
    obtain rfl := Option.some.inj hstep
    exact h.ack hconsumer reply
  all_goals cases hstep

theorem Lawful.nextEntry (h : Lawful cfg s) (hconsumer : s.consumer = .processing rest)
    (hclean : s.Clean cfg .nextEntry) : Lawful cfg (s.nextEntry rest) := by
  have hnone : holds s.consumer = none := by rw [hconsumer]; rfl
  unfold PushStream.nextEntry
  split
  · exact h.goto rfl rfl rfl rfl trivial (.inl hnone)
  · rename_i entry rest
    simp only [Clean, hconsumer] at hclean
    split
    · rename_i hbad
      exact h.goto rfl rfl rfl rfl hbad (.inl hnone)
    · rename_i event hevent
      simp only [hevent] at hclean
      refine h.goto rfl rfl rfl rfl ?_ (.inl hnone)
      show Serves _ _ (if _ then _ else _)
      split
      · exact ⟨hevent, hclean⟩
      · trivial

theorem inductive_lawful (cfg : RedisConfig) :
    (lts cfg).Inductive (Clean cfg) (Lawful cfg) where
  init s hs := by
    obtain ⟨-, -, -, hdedup, -, hconsumer, -, hacked⟩ := hs
    refine ⟨fun e he => ?_, by rw [hconsumer]; trivial, fun m expires hm => ?_⟩
    · rw [hacked] at he
      cases he
    · rw [hdedup] at hm
      cases hm
  step s l s' h hclean hstep := by
    cases l with
    | tick seconds =>
      obtain rfl := Option.some.inj hstep
      refine h.goto rfl rfl rfl rfl ?_ (.inr rfl)
      exact h.serves.tick seconds
    | xadd fields =>
      obtain rfl := Option.some.inj hstep
      refine h.goto rfl rfl rfl rfl ?_ (.inr rfl)
      exact h.serves
    | pollOnce =>
      obtain ⟨hidle, ⟨⟩⟩ := Option.ite_none_right_eq_some.mp hstep
      exact h.goto rfl rfl rfl rfl trivial (.inl (by rw [hidle]; rfl))
    | claim ids =>
      obtain ⟨⟨hclaiming, -⟩, ⟨⟩⟩ := Option.ite_none_right_eq_some.mp hstep
      exact h.goto rfl rfl rfl rfl trivial (.inl (by rw [hclaiming]; rfl))
    | command reply => exact h.command hclean hstep
    | nextEntry =>
      simp only [lts, PushStream.step] at hstep
      split at hstep
      · rename_i hconsumer
        obtain rfl := Option.some.inj hstep
        exact h.nextEntry hconsumer hclean
      · cases hstep
    | callback outcome =>
      simp only [lts, PushStream.step] at hstep
      split at hstep
      · rename_i hconsumer
        obtain rfl := Option.some.inj hstep
        exact h.deliver hconsumer outcome
      · cases hstep

end PushStream

/-! ## Guarantees -/

open PushStream

variable {cfg : RedisConfig} {s : PushStream}

def serverB : RedisConfig := ⟨str "chat", str "server-b", 3600, 60⟩

/-- A push of message `m1` to a connection of user 2. -/
def pushTo (conn : ConnId) : RemotePushEvent := ⟨str "e", str "m1", 1, 2, conn, str "body"⟩

/-- Serve one entry, with the answer of its callback. -/
def serve (outcome : RemoteDeliveryOutcome) : List Label :=
  [.nextEntry, .command .answered, .callback outcome, .command .answered]

/-- The message is published twice. The first attempt is to be tried again; its
entry is claimed after the second one was delivered. -/
def retried : List Label :=
  [.xadd (pushFields (pushTo 4)), .xadd (pushFields (pushTo 4)), .pollOnce, .claim none,
    .command .answered] ++ serve .retry ++ serve .delivered ++
  [.nextEntry, .pollOnce, .claim (some [0]), .command .answered, .nextEntry, .command .answered,
    .command (.failed true)]

/-- Of two calls of the callback that deliver the same message, the later one
returns after the dedup key of the earlier one has expired. -/
theorem delivered_at_most_once (hs : (lts cfg).Reachable s) :
    s.callbacks.Pairwise fun a b => a.messageId = b.messageId → a.outcome = .delivered →
      b.outcome = .delivered → a.expires ≤ b.returned :=
  ((inductive_atMostOnce cfg).invariant hs).spaced

theorem delivered_at_most_once_retried :
    ∃ s, (lts serverB).Reachable s ∧ s.callbacks.map (·.outcome) = [.retry, .delivered] ∧
      s.callbacks.Pairwise fun a b => a.messageId = b.messageId → a.outcome = .delivered →
        b.outcome = .delivered → a.expires ≤ b.returned := by
  obtain ⟨s, hs, h⟩ := Base.Lts.exists_reach_of_run (M := lts serverB) (s := {})
    (fun s => decide (s.callbacks.map (·.outcome) = [.retry, .delivered]))
    retried ⟨rfl, rfl, rfl, rfl, rfl, rfl, rfl, rfl⟩ Base.Lts.runOk_true (by decide +kernel)
  exact ⟨s, hs, of_decide_eq_true h, delivered_at_most_once hs⟩

/-- An `XACK` is sent only for a malformed entry in the dead-letter stream, for an
entry whose own callback delivered it or found its target invalid, or for one
whose message was delivered; and every entry the callback was called for stays
pending until then. -/
theorem acked_entries_served (hs : (lts cfg).Reach (Clean cfg) s) :
    (∀ e ∈ s.acked, s.Served e) ∧
    ∀ a ∈ s.callbacks, a.streamId ∈ s.pending ∨ ∃ e ∈ s.acked, e.streamId = a.streamId :=
  ⟨((inductive_lawful cfg).invariant hs).acked,
    ((inductive_tracked cfg).invariant hs.reachable).called⟩

theorem acked_entries_served_retried :
    ∃ s, (lts serverB).Reach (Clean serverB) s ∧ s.acked.map (·.streamId) = [1, 0] ∧
      ∀ e ∈ s.acked, s.Served e := by
  have hok : (lts serverB).RunOk (Clean serverB) {} retried := by decide +kernel
  obtain ⟨s, hs, h⟩ := Base.Lts.exists_reach_of_run (M := lts serverB) (s := {})
    (fun s => decide (s.acked.map (·.streamId) = [1, 0]))
    retried ⟨rfl, rfl, rfl, rfl, rfl, rfl, rfl, rfl⟩ hok (by decide +kernel)
  exact ⟨s, hs, of_decide_eq_true h, (acked_entries_served hs).1⟩

/-- Connection 4 is gone; the message is published again for connection 5. -/
def republished : List Label :=
  [.xadd (pushFields (pushTo 4)), .pollOnce, .claim none, .command .answered] ++
  serve .invalidTarget ++
  [.nextEntry, .xadd (pushFields (pushTo 5)), .pollOnce, .claim none, .command .answered,
    .nextEntry, .command .answered, .command .answered]

/-- The key set for the invalid target suppresses the second entry: it is
acknowledged, and the callback was never called for it. -/
theorem acked_entry_suppressed :
    ∃ s, (lts serverB).Reachable s ∧
      s.callbacks.map (fun a => (a.streamId, a.outcome)) = [(0, .invalidTarget)] ∧
      (∃ e ∈ s.acked, e.streamId = 1 ∧ ¬ s.Served e) ∧ 1 ∉ s.pending := by
  obtain ⟨s, hs, h⟩ := Base.Lts.exists_reach_of_run (M := lts serverB) (s := {})
    (fun s => decide (s.callbacks.map (fun a => (a.streamId, a.outcome)) =
      [(0, .invalidTarget)] ∧ s.acked.map (·.streamId) = [0, 1] ∧
      s.deadLetters = [] ∧ 1 ∉ s.pending))
    republished ⟨rfl, rfl, rfl, rfl, rfl, rfl, rfl, rfl⟩ Base.Lts.runOk_true (by decide +kernel)
  obtain ⟨hcalls, hacked, hdead, hpending⟩ := of_decide_eq_true h
  obtain ⟨e, he, hid⟩ := List.mem_map.mp (show 1 ∈ s.acked.map (·.streamId) by simp [hacked])
  have honly : ∀ a ∈ s.callbacks, a.streamId = 0 ∧ a.outcome = .invalidTarget := by
    intro a ha
    have hmem := List.mem_map_of_mem (f := fun a => (a.streamId, a.outcome)) ha
    rw [hcalls, List.mem_singleton, Prod.mk.injEq] at hmem
    exact hmem
  refine ⟨s, hs, hcalls, ⟨e, he, hid, ?_⟩, hpending⟩
  rintro (⟨-, hmoved⟩ | ⟨a, ha, hown, -⟩ | ⟨-, -, a, ha, -, hdelivered⟩)
  · rw [hdead] at hmoved
    cases hmoved
  · rw [(honly a ha).1, hid] at hown
    cases hown
  · rw [(honly a ha).2] at hdelivered
    cases hdelivered

end ChatServer.Stream
