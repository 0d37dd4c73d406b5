import ChatServer.Remote.Refine
import ChatServer.Stream.PushStream

/-!
# The consumer of the push stream and `stop()`

The consumer thread of `RedisPushStream` calls `deliverRemotePush` for the entries of
its stream, while a thread may be in `stop()`. What the call returns decides whether
the entry is acknowledged: after `kRetry` it stays pending, after any other outcome it
is gone.

* `PushConsumer` — the server with its callers and the stream, side by side;
* `PushConsumer.Accounted` — outcomes other than `kRetry` come from the I/O thread,
  which has looked at the target;
* `stopped_push_retried` — a stop consumes no event, unless a call begins after it;
* `stopped_push_consumed` — a call that does.
-/

namespace ChatServer.Remote

open Net Service

/-- What the callback hands over. -/
def remotePushOf (event : RemotePushEvent) : RemotePush :=
  ⟨event.targetConnectionId, event.toUserId, event.payload⟩

structure PushWellFormed (event : RemotePush) : Prop where
  target : event.targetConnectionId ≠ 0
  user : 0 < event.toUserId
  payload : event.payload ≠ []

structure PushConsumer where
  delivery : Delivery := {}
  stream : Stream.PushStream := {}
  /-- the tasks the I/O thread has dealt with, and whether the target was registered
  and bound to the user -/
  found : List (Nat × Bool) := []

inductive ConsumerLabel
  | delivery (l : Label)
  | stream (l : Stream.Label)
  deriving DecidableEq

namespace PushConsumer

variable (cfg : Redis.RedisConfig) (event : Nat → RemotePush) (s : PushConsumer)

/-- The calls are made one after another; this is the one under way, or the next. -/
def current : Nat := s.stream.callbacks.length

/-- Only the consumer calls `deliverRemotePush`, with the event of its entry. -/
def admits : Label → Bool
  | .call k =>
    match s.stream.consumer with
    | .delivering _ e _ _ => k = s.current ∧ event k = remotePushOf e
    | _ => false
  | _ => true

/-- What the I/O thread finds out in a step. -/
def finds : Label → List (Nat × Bool)
  | .deliver env =>
    match s.delivery.hand with
    | .claimed k => [(k, s.delivery.reaches event k env)]
    | _ => []
  | _ => []

def step : ConsumerLabel → Option PushConsumer
  | .delivery l =>
    if s.admits event l then
      (s.delivery.step event l).map fun d =>
        { s with delivery := d, found := s.found ++ s.finds event l }
    else none
  | .stream (.callback outcome) =>
    -- the callback returns what the call returned
    if (s.delivery.callers s.current).pos = .returned outcome then
      (s.stream.step cfg (.callback outcome)).map fun t => { s with stream := t }
    else none
  | .stream l => (s.stream.step cfg l).map fun t => { s with stream := t }

end PushConsumer

/-- The server, and the consumer of its push stream. -/
def pushConsumer (cfg : Redis.RedisConfig) (event : Nat → RemotePush) :
    Base.Lts PushConsumer ConsumerLabel where
  Init s := s.delivery = {} ∧ s.stream.Initial ∧ s.found = []
  step s l := s.step cfg event l

/-- No call begins while the server is stopping. -/
def Calm (s : PushConsumer) : ConsumerLabel → Prop
  | .delivery (.call _) => s.delivery.net.stopping = false
  | _ => True

instance (s : PushConsumer) (l : ConsumerLabel) : Decidable (Calm s l) := by
  unfold Calm
  split <;> infer_instance

/-! ## Who decides -/

namespace PushConsumer

variable {cfg : Redis.RedisConfig} {event : Nat → RemotePush} {s s' : PushConsumer} {k : Nat}

/-- The I/O thread has looked at the target and come to the outcome. -/
def Served (s : PushConsumer) (k : Nat) (outcome : RemoteDeliveryOutcome) : Prop :=
  (k, decide (outcome ≠ .invalidTarget)) ∈ s.found

structure Accounted (s : PushConsumer) (k : Nat) : Prop where
  hand : ∀ o, s.delivery.hand = .decided k o → s.Served k o
  completion : ∀ o, (s.delivery.callers k).completion = some o → o = .retry ∨ s.Served k o
  returned : ∀ o, (s.delivery.callers k).pos = .returned o → o = .retry ∨ s.Served k o

/-- What is known of call `k` does not get lost. -/
theorem Accounted.of_same (h : s.Accounted k) (hfound : s.found ⊆ s'.found)
    (hhand : s'.delivery.hand = s.delivery.hand)
    (hcaller : s'.delivery.callers k = s.delivery.callers k) : s'.Accounted k := by
  refine ⟨fun o ho => hfound (h.hand o (hhand ▸ ho)), fun o ho => ?_, fun o ho => ?_⟩
  · rw [hcaller] at ho
    exact (h.completion o ho).imp_right fun hserved => hfound hserved
  · rw [hcaller] at ho
    exact (h.returned o ho).imp_right fun hserved => hfound hserved

variable {j : Nat} {d : Delivery}

/-- The call or the task of `j` goes on. -/
theorem Accounted.setCaller (h : s.Accounted k) {c : Caller}
    (hcallers : d.callers = (s.delivery.setCaller j c).callers)
    (hhand : ∀ o, d.hand = .decided k o → s.Served k o)
    (hcompletion : j = k → ∀ o, c.completion = some o → o = .retry ∨ s.Served k o)
    (hpos : j = k → ∀ o, c.pos = .returned o → o = .retry ∨ s.Served k o) :
    ({ s with delivery := d } : PushConsumer).Accounted k := by
  have hcaller : d.callers k = (s.delivery.setCaller j c).callers k := congrFun hcallers k
  by_cases hk : k = j
  · subst hk
    have hself : d.callers k = c := hcaller.trans Delivery.callers_setCaller
    refine ⟨hhand, fun o ho => hcompletion rfl o ?_, fun o ho => hpos rfl o ?_⟩
    · rw [← hself]
      exact ho
    · rw [← hself]
      exact ho
  · have hother : d.callers k = s.delivery.callers k :=
      hcaller.trans (Delivery.callers_setCaller_ne hk)
    refine ⟨hhand, fun o ho => h.completion o ?_, fun o ho => h.returned o ?_⟩
    · rw [← hother]
      exact ho
    · rw [← hother]
      exact ho

/-- The call of `j` goes on, its task is left alone. -/
theorem Accounted.goTo (h : s.Accounted k) {pos : CallerPos}
    (hcallers : d.callers = (s.delivery.goTo j pos).callers) (hhand : d.hand = s.delivery.hand)
    (hpos : j = k → ∀ o, pos = .returned o → o = .retry ∨ s.Served k o) :
    ({ s with delivery := d } : PushConsumer).Accounted k := by
  refine h.setCaller hcallers (fun o ho => h.hand o (hhand ▸ ho)) (fun hk o ho => ?_) hpos
  subst hk
  exact h.completion o ho

/-- A caller that gives up returns `kRetry`. -/
theorem Accounted.abandonOr (h : s.Accounted k) {pos : CallerPos} (hpos : ∀ o, pos ≠ .returned o) :
    ({ s with delivery := s.delivery.abandonOr j pos } : PushConsumer).Accounted k := by
  unfold Delivery.abandonOr
  split
  · refine h.setCaller rfl h.hand (fun hk o ho => ?_) fun _ o ho => .inl ?_
    · subst hk
      exact h.completion o ho
    · exact (CallerPos.returned.inj ho).symm
  · exact h.goTo rfl rfl fun _ o ho => absurd ho (hpos o)

/-- `set_value`, with `kRetry` or with what the I/O thread has decided. -/
theorem Accounted.setValue (h : s.Accounted k) {outcome : RemoteDeliveryOutcome}
    (hcallers : d.callers = (s.delivery.setCaller j ((s.delivery.callers j).setValue outcome)).callers)
    (hhand : ∀ o, d.hand = .decided k o → s.Served k o)
    (houtcome : j = k → outcome = .retry ∨ s.Served k outcome) :
    ({ s with delivery := d } : PushConsumer).Accounted k := by
  refine h.setCaller hcallers hhand (fun hk o ho => ?_) fun hk o ho => ?_
  · subst hk
    have hor : (s.delivery.callers j).completion.or (some outcome) = some o := ho
    rcases Option.or_eq_some_iff.mp hor with hold | ⟨-, hnew⟩
    · exact h.completion o hold
    · rw [← Option.some.inj hnew]
      exact houtcome rfl
  · subst hk
    exact h.returned o ho

/-- The event is not rejected while the server is running. -/
theorem not_rejects (hwf : PushWellFormed (event k)) (hrunning : d.net.stopping = false) :
    d.rejects event k = false := by
  have htarget : ((event k).targetConnectionId == 0) = false := beq_false_of_ne hwf.target
  have huser : decide ((event k).toUserId ≤ 0) = false := decide_eq_false (not_le.mpr hwf.user)
  have hpayload : (event k).payload.isEmpty = false := by
    rw [List.isEmpty_eq_false_iff]
    exact hwf.payload
  unfold Delivery.rejects
  rw [hrunning, htarget, huser, hpayload]
  rfl

theorem outcome_eq_invalidTarget_iff {env : Env} :
    decide (d.outcome event k env ≠ .invalidTarget) = d.reaches event k env := by
  unfold Delivery.outcome
  cases d.reaches event k env with
  | true =>
    rw [if_pos rfl]
    split <;> rfl
  | false => rfl

/-- A task the I/O thread takes up. -/
theorem Accounted.claimStep (h : s.Accounted k) (hstep : s.delivery.claimStep = some d) :
    ({ s with delivery := d } : PushConsumer).Accounted k := by
  unfold Delivery.claimStep at hstep
  cases htaken : s.delivery.taken with
  | nil =>
    rw [htaken] at hstep
    cases hstep
  | cons j rest =>
    simp only [htaken] at hstep
    split at hstep
    · obtain rfl := Option.some.inj hstep
      refine h.setCaller rfl (fun o ho => by cases ho) (fun hk o ho => ?_) fun hk o ho => ?_
      · subst hk
        exact h.completion o ho
      · subst hk
        exact h.returned o ho
    · obtain ⟨net, -, rfl⟩ := Option.map_eq_some_iff.mp hstep
      exact h.of_same (List.Subset.refl _) rfl rfl

/-- The I/O thread looks at the target and writes down what it finds. -/
theorem Accounted.deliverStep (h : s.Accounted k) {env : Env}
    (hhand : s.delivery.hand = .claimed j) (hstep : s.delivery.deliverStep event j env = some d) :
    ({ s with delivery := d, found := s.found ++ s.finds event (.deliver env) } :
      PushConsumer).Accounted k := by
  have hfinds : s.finds event (.deliver env) = [(j, s.delivery.reaches event j env)] := by
    unfold finds
    rw [hhand]
  obtain ⟨net, -, rfl⟩ := Option.map_eq_some_iff.mp hstep
  rw [hfinds]
  -- with the longer list, the call is in the state it was in
  have hgrown : ({ s with found := s.found ++ [(j, s.delivery.reaches event j env)] } :
      PushConsumer).Accounted k := h.of_same (List.subset_append_left _ _) rfl rfl
  refine hgrown.setCaller rfl (fun o ho => ?_) (fun hk o ho => ?_) fun hk o ho => ?_
  · obtain ⟨rfl, rfl⟩ := Hand.decided.inj ho
    refine List.mem_append_right _ (List.mem_singleton.mpr ?_)
    rw [outcome_eq_invalidTarget_iff]
  · subst hk
    exact hgrown.completion o ho
  · subst hk
    exact hgrown.returned o ho

/-- A step in which the I/O thread looks at no target. -/
theorem Accounted.quiet {l : Label} (hnone : s.finds event l = [])
    (h : ({ s with delivery := d } : PushConsumer).Accounted k) :
    ({ s with delivery := d, found := s.found ++ s.finds event l } : PushConsumer).Accounted k := by
  rw [hnone, List.append_nil]
  exact h

/-- A step of the server or of a caller. -/
theorem Accounted.delivery (h : s.Accounted k) (hwf : PushWellFormed (event k)) {l : Label}
    (hcalm : Calm s (.delivery l)) (hstep : s.delivery.step event l = some d) :
    ({ s with delivery := d, found := s.found ++ s.finds event l } : PushConsumer).Accounted k := by
  cases l with
  | deliver env =>
    simp only [Delivery.step] at hstep
    split at hstep
    · rename_i j hhand
      exact h.deliverStep hhand hstep
    · cases hstep
  | net l =>
    obtain ⟨-, hstep⟩ := Option.ite_none_right_eq_some.mp hstep
    obtain ⟨net, -, rfl⟩ := Option.map_eq_some_iff.mp hstep
    refine h.of_same (List.subset_append_left _ _) (Delivery.follow_eq l net).2.1 ?_
    show (s.delivery.follow l net).callers k = _
    unfold Delivery.follow
    split
    · split <;> rfl
    · rfl
  | call j =>
    obtain ⟨-, ⟨⟩⟩ := Option.ite_none_right_eq_some.mp hstep
    refine .quiet rfl ?_
    refine h.goTo rfl rfl fun hk o ho => ?_
    -- a well-formed event is not rejected, for the server is not stopping
    subst hk
    rw [not_rejects hwf hcalm, if_neg Bool.false_ne_true] at ho
    cases ho
  | enter j =>
    obtain ⟨-, ⟨⟩⟩ := Option.ite_none_right_eq_some.mp hstep
    refine .quiet rfl ?_
    refine h.goTo rfl rfl fun _ o ho => .inl ?_
    split at ho
    · exact (CallerPos.returned.inj ho).symm
    · cases ho
  | enqueue j | timeout j =>
    obtain ⟨-, ⟨⟩⟩ := Option.ite_none_right_eq_some.mp hstep
    refine .quiet rfl ?_
    refine h.goTo rfl rfl fun _ o ho => ?_
    cases ho
  | notify j written =>
    obtain ⟨-, ⟨⟩⟩ := Option.ite_none_right_eq_some.mp hstep
    refine .quiet rfl ?_
    refine h.goTo rfl rfl fun _ o ho => ?_
    split at ho <;> cases ho
  | withdraw j | expire j =>
    obtain ⟨-, ⟨⟩⟩ := Option.ite_none_right_eq_some.mp hstep
    refine .quiet rfl ?_
    exact h.abandonOr fun o ho => by cases ho
  | get j =>
    obtain ⟨-, hstep⟩ := Option.ite_none_right_eq_some.mp hstep
    obtain ⟨outcome, hcompletion, rfl⟩ := Option.map_eq_some_iff.mp hstep
    refine .quiet rfl ?_
    refine h.goTo rfl rfl fun hk o ho => ?_
    subst hk
    rw [← CallerPos.returned.inj ho]
    exact h.completion outcome hcompletion
  | claim =>
    obtain ⟨-, hstep⟩ := Option.ite_none_right_eq_some.mp hstep
    refine .quiet rfl ?_
    exact h.claimStep hstep
  | fulfil =>
    simp only [Delivery.step] at hstep
    split at hstep
    · rename_i j outcome hhand
      cases hstep
      refine .quiet rfl ?_
      refine h.setValue (j := j) rfl (fun o ho => by cases ho) fun hk => .inr (h.hand outcome ?_)
      rw [hhand, hk]
    · cases hstep
  | refuse =>
    simp only [Delivery.step] at hstep
    split at hstep
    · rename_i j tasks hstopper
      cases hstep
      refine .quiet rfl ?_
      exact h.setValue (j := j) rfl h.hand fun _ => .inl rfl
    · cases hstep
  | sweep =>
    simp only [Delivery.step] at hstep
    split at hstep
    · rename_i j tasks hstopper
      cases hstep
      refine .quiet rfl ?_
      unfold Delivery.sweepStep
      split
      · refine h.setCaller (j := j) rfl h.hand (fun hk o ho => ?_) fun hk o ho => ?_
        · subst hk
          exact h.completion o ho
        · subst hk
          exact h.returned o ho
      · exact h.of_same (List.Subset.refl _) rfl rfl
    · cases hstep
  | eventFd opened =>
    cases hstep
    exact h.of_same (List.subset_append_left _ _) rfl rfl
  | stop =>
    simp only [Delivery.step] at hstep
    split at hstep
    · cases hstep
      exact h.of_same (List.subset_append_left _ _) rfl rfl
    · cases hstep
      exact h.of_same (List.subset_append_left _ _) rfl rfl
  | swap =>
    obtain ⟨-, ⟨⟩⟩ := Option.ite_none_right_eq_some.mp hstep
    exact h.of_same (List.subset_append_left _ _) rfl rfl

/-- The consumer's own steps leave the calls alone. -/
theorem stream_step {l : Stream.Label} (hstep : s.step cfg event (.stream l) = some s') :
    ∃ t, s.stream.step cfg l = some t ∧ s' = { s with stream := t } := by
  cases l with
  | callback outcome =>
    obtain ⟨-, hstep⟩ := Option.ite_none_right_eq_some.mp hstep
    obtain ⟨t, ht, rfl⟩ := Option.map_eq_some_iff.mp hstep
    exact ⟨t, ht, rfl⟩
  | _ =>
    simp only [step] at hstep
    obtain ⟨t, ht, rfl⟩ := Option.map_eq_some_iff.mp hstep
    exact ⟨t, ht, rfl⟩

theorem accounted (hs : (pushConsumer cfg event).Reach Calm s) (hwf : PushWellFormed (event k)) :
    s.Accounted k := by
  refine Base.Lts.Inductive.invariant (I := fun s => s.Accounted k)
    ⟨fun s hinit => ?_, fun s l s' h hcalm hstep => ?_⟩ hs
  · obtain ⟨hdelivery, -, -⟩ := hinit
    refine ⟨fun o ho => ?_, fun o ho => ?_, fun o ho => ?_⟩ <;>
      · rw [hdelivery] at ho
        cases ho
  · cases l with
    | delivery l =>
      obtain ⟨-, hstep⟩ := Option.ite_none_right_eq_some.mp hstep
      obtain ⟨d, hd, rfl⟩ := Option.map_eq_some_iff.mp hstep
      exact h.delivery hwf hcalm hd
    | stream l =>
      obtain ⟨t, -, rfl⟩ := stream_step hstep
      exact h.of_same (List.Subset.refl _) rfl rfl

end PushConsumer

/-! ## Stopping -/

/-- If no call begins while the server is stopping, wherever else `stop()` comes:
`kInvalidTarget` is returned only for a target that the I/O thread found unregistered
or not bound to the user; a call whose task the I/O thread does not take up returns
`kRetry`; and after `kRetry` the consumer goes on to the next entry with this one still
pending. -/
theorem stopped_push_retried {cfg : Redis.RedisConfig} {event : Nat → RemotePush}
    {s : PushConsumer} (hs : (pushConsumer cfg event).Reach Calm s) {k : Nat}
    (hwf : PushWellFormed (event k)) :
    ((s.delivery.callers k).pos = .returned .invalidTarget → (k, false) ∈ s.found) ∧
      (∀ outcome, (s.delivery.callers k).pos = .returned outcome →
        (∀ reached, (k, reached) ∉ s.found) → outcome = .retry) ∧
      ∀ entry e expires rest, s.stream.consumer = .delivering entry e expires rest →
        (s.delivery.callers s.current).pos = .returned .retry →
        ∃ s', (pushConsumer cfg event).step s (.stream (.callback .retry)) = some s' ∧
          ∀ reply, ∃ s'', (pushConsumer cfg event).step s' (.stream (.command reply)) = some s'' ∧
            s''.stream.pending = s.stream.pending ∧ s''.stream.acked = s.stream.acked ∧
            s''.stream.consumer = .processing rest := by
  have haccounted := PushConsumer.accounted hs hwf
  refine ⟨fun hpos => ?_, fun outcome hpos hnone => ?_, ?_⟩
  · rcases haccounted.returned _ hpos with hretry | hserved
    · cases hretry
    · exact hserved
  · rcases haccounted.returned _ hpos with hretry | hserved
    · exact hretry
    · exact absurd hserved (hnone _)
  · intro entry e expires rest hconsumer hpos
    have hcallback : s.stream.step cfg (.callback .retry) =
        some (s.stream.deliver entry e expires rest .retry) := by
      simp only [Stream.PushStream.step, hconsumer]
    refine ⟨{ s with stream := s.stream.deliver entry e expires rest .retry }, ?_, fun reply =>
      ⟨{ s with stream := (s.stream.deliver entry e expires rest .retry).release cfg e rest reply },
        rfl, ?_⟩⟩
    · show (if _ then _ else none) = _
      rw [if_pos hpos, hcallback]
      rfl
    · unfold Stream.PushStream.release
      cases reply.effective <;> exact ⟨rfl, rfl, rfl⟩

def serverC : Redis.RedisConfig := ⟨str "chat", str "server-c", 3600, 60⟩

def pushed : RemotePushEvent := ⟨str "e1", str "m1", 1, 2, 1, str "p"⟩

/-- The consumer comes to an event whose target is connected. -/
def consumed : List ConsumerLabel :=
  [.delivery (.eventFd true), .delivery (.net (.accept [])),
    .stream (.xadd (Stream.pushFields pushed)), .stream .pollOnce, .stream (.claim none),
    .stream (.command .answered), .stream .nextEntry, .stream (.command .answered)]

/-- The server is stopped behind the first check of the call. -/
theorem stopped_push_retried_entering :
    ∃ s, (pushConsumer serverC fun _ => remotePushOf pushed).Reach Calm s ∧
      (s.delivery.callers 0).pos = .returned .retry ∧
      ∃ s', (pushConsumer serverC fun _ => remotePushOf pushed).step s
          (.stream (.callback .retry)) = some s' ∧
        ∀ reply, ∃ s'', (pushConsumer serverC fun _ => remotePushOf pushed).step s'
            (.stream (.command reply)) = some s'' ∧ s''.stream.pending = [0] := by
  have hok : (pushConsumer serverC fun _ => remotePushOf pushed).RunOk Calm {}
      (consumed ++ [.delivery (.call 0), .delivery .stop, .delivery (.enter 0)]) := by
    decide +kernel
  obtain ⟨s, hs, h⟩ := Base.Lts.exists_reach_of_run
    (M := pushConsumer serverC fun _ => remotePushOf pushed) (s := {})
    (fun s => decide ((s.delivery.callers 0).pos = .returned .retry ∧ s.current = 0 ∧
      s.stream.pending = [0]) && match s.stream.consumer with
        | .delivering _ _ _ _ => true
        | _ => false)
    (consumed ++ [.delivery (.call 0), .delivery .stop, .delivery (.enter 0)])
    ⟨rfl, ⟨rfl, rfl, rfl, rfl, rfl, rfl, rfl, rfl⟩, rfl⟩ hok (by decide +kernel)
  rw [Bool.and_eq_true] at h
  obtain ⟨hpos, hcurrent, hpending⟩ := of_decide_eq_true h.1
  have hwf : PushWellFormed (remotePushOf pushed) := ⟨by decide, by decide, by decide⟩
  cases hconsumer : s.stream.consumer with
  | delivering entry e expires rest =>
    obtain ⟨s', hs', hnext⟩ := (stopped_push_retried hs (k := 0) hwf).2.2 entry e expires rest
      hconsumer (hcurrent ▸ hpos)
    refine ⟨s, hs, hpos, s', hs', fun reply => ?_⟩
    obtain ⟨s'', hs'', hkept, -⟩ := hnext reply
    exact ⟨s'', hs'', hkept.trans hpending⟩
  | _ =>
    rw [hconsumer] at h
    exact absurd h.2 Bool.false_ne_true

/-- The server is stopped before the call: the target is connected and nobody looks at
it, the call returns `kInvalidTarget`, and the entry is acknowledged. -/
theorem stopped_push_consumed :
    ∃ s, (pushConsumer serverC fun _ => remotePushOf pushed).Reachable s ∧
      PushWellFormed (remotePushOf pushed) ∧ s.delivery.net.registered 1 = true ∧
      (s.delivery.callers 0).pos = .returned .invalidTarget ∧ s.found = [] ∧
      s.stream.acked.map (·.streamId) = [0] ∧ s.stream.pending = [] := by
  obtain ⟨s, hs, h⟩ := Base.Lts.exists_reach_of_run
    (M := pushConsumer serverC fun _ => remotePushOf pushed) (s := {})
    (fun s => decide (s.delivery.net.registered 1 = true ∧
      (s.delivery.callers 0).pos = .returned .invalidTarget ∧ s.found = [] ∧
      s.stream.acked.map (·.streamId) = [0] ∧ s.stream.pending = []))
    (consumed ++ [.delivery .stop, .delivery (.call 0), .stream (.callback .invalidTarget),
      .stream (.command .answered)])
    ⟨rfl, ⟨rfl, rfl, rfl, rfl, rfl, rfl, rfl, rfl⟩, rfl⟩ Base.Lts.runOk_true (by decide +kernel)
  exact ⟨s, hs, ⟨by decide, by decide, by decide⟩, of_decide_eq_true h⟩

end ChatServer.Remote
