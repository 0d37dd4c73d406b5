import ChatServer.Remote.Refine

/-!
# What `deliverRemotePush` guarantees

`remote_push_settled_once`: an event that is to be retried is never sent, one
that was delivered was appended once, the promise is fulfilled at most once, and
a caller in `wait` gets its value.

The stages of a ticket say what was appended when; `Placed` follows what was
appended into the network layer.
-/

namespace ChatServer.Remote

open Net Service

namespace Delivery

variable {event : Nat → RemotePush} {s s' : Delivery} {k : Nat}

theorem ticket_sound (hs : (delivery event).Reachable s) (k : Nat) :
    (s.ticket k).Sound (event k).targetConnectionId := by
  refine Base.Lts.Inductive.relative (J := fun s => s.Aligned event)
    (I := fun s => (s.ticket k).Sound (event k).targetConnectionId)
    (fun s hs => (inductive_aligned event).invariant hs) ?_ ?_ hs
  · rintro s rfl
    exact ⟨.waiting, fun _ => ⟨rfl, rfl⟩, nofun, nofun, nofun⟩
  · intro s l s' haligned _ h _ hstep
    exact h.moves (step_ticket haligned.stopping hstep)

/-! ## What was appended -/

/-- The I/O thread or `stop()` has decided for a retry. -/
def Retried (s : Delivery) (k : Nat) : Prop :=
  s.hand.of k = some (some .retry) ∨ (s.callers k).completion = some .retry

structure Placed (event : Nat → RemotePush) (s : Delivery) (k : Nat) : Prop where
  pushed : ∀ spot ∈ (s.callers k).appended, s.net.Pushed (event k).payload spot
  lost : s.Retried k → ∀ spot ∈ (s.callers k).appended, s.net.Lost spot

theorem Placed.of_eq (h : s.Placed event k) (hkeeps : s.net.Keeps s'.net)
    (happended : (s'.callers k).appended = (s.callers k).appended)
    (hretried : s'.Retried k → s.Retried k ∨ (s.callers k).appended = []) :
    s'.Placed event k := by
  refine ⟨?_, fun hretry => ?_⟩
  all_goals rw [happended]; intro spot hspot
  · exact (hkeeps _ _ (h.pushed spot hspot)).1
  · rcases hretried hretry with hold | hnone
    · exact (hkeeps _ _ (h.pushed spot hspot)).2 (h.lost hold spot hspot)
    · rw [hnone] at hspot
      cases hspot

/-- Steps that leave the promise and the place of call `k` alone. -/
theorem Placed.of_shared (h : s.Placed event k) (hkeeps : s.net.Keeps s'.net)
    (hcaller : (s'.callers k).completion = (s.callers k).completion ∧
      (s'.callers k).appended = (s.callers k).appended)
    (hhand : s'.hand.of k = some (some .retry) → s.hand.of k = some (some .retry)) :
    s'.Placed event k :=
  h.of_eq hkeeps hcaller.2 fun hretry => .inl (hretry.imp hhand hcaller.1.symm.trans)

variable {j n : Nat} {env : Env} {l : Label}

theorem shared_setCaller {c : Caller} (hcompletion : c.completion = (s.callers j).completion)
    (happended : c.appended = (s.callers j).appended) :
    ((s.setCaller j c).callers k).completion = (s.callers k).completion ∧
      ((s.setCaller j c).callers k).appended = (s.callers k).appended := by
  by_cases hk : k = j
  · subst hk
    rw [callers_setCaller]
    exact ⟨hcompletion, happended⟩
  · rw [callers_setCaller_ne hk]
    exact ⟨rfl, rfl⟩

theorem sound_net (h : s.Aligned event) : s.net.Sound :=
  Server.sound_inductive.invariant h.reachable

theorem Placed.claimStep (h : s.Placed event k) (haligned : s.Aligned event)
    (hstep : s.claimStep = some s') : s'.Placed event k := by
  unfold Delivery.claimStep at hstep
  split at hstep
  · cases hstep
  · split at hstep
    · cases hstep
      refine h.of_shared (Server.keeps_of_queue _ _) (shared_setCaller rfl rfl) fun hretry => ?_
      obtain ⟨-, hno⟩ := Option.ite_none_right_eq_some.mp hretry
      cases hno
    · obtain ⟨net, hnet, rfl⟩ := Option.map_eq_some_iff.mp hstep
      exact h.of_shared (Server.keeps_of_step (sound_net haligned) hnet) ⟨rfl, rfl⟩ id

/-- The step of the network layer for a claimed task. -/
theorem Aligned.net_deliver (h : s.Aligned event) {net : Server} (hhand : s.hand = .claimed k)
    (hnet : s.net.step (.io env) = some net) : ∃ ops, net = s.net.remoteOp (event k) ops env := by
  obtain ⟨hremote, rest, htaken⟩ := h.hand k hhand
  obtain ⟨e, ops, hio⟩ := Io.of_atRemote hremote
  obtain ⟨-, hremotes⟩ := Prod.mk.inj h.work
  have he : e = event k := by
    rw [hio, htaken] at hremotes
    exact (List.cons.inj hremotes).1
  have hop : s.net.ioStep env = some (s.net.remoteOp e ops env) := by
    unfold Server.ioStep
    rw [hio]
    rfl
  exact ⟨ops, he ▸ Option.some.inj (hnet.symm.trans hop)⟩

/-- What the I/O thread appends for the task it has claimed. -/
theorem placed_deliver {net : Server} (haligned : s.Aligned event) (hhand : s.hand = .claimed k)
    (hnet : s.net.step (.io { env with claimed := true }) = some net) :
    ∀ spot ∈ s.spots event k env, net.Pushed (event k).payload spot ∧
      (s.outcome event k env = .retry → net.Lost spot) := by
  obtain ⟨ops, rfl⟩ := haligned.net_deliver hhand hnet
  intro spot hspot
  unfold outcome
  cases hreach : s.reaches event k env with
  | false =>
    simp only [spots, hreach] at hspot
    cases hspot
  | true =>
    simp only [spots, hreach, if_true, List.mem_singleton] at hspot
    subst hspot
    obtain ⟨hpushed, hlost⟩ := Server.pushed_remoteOp (e := event k) ops
      { env with claimed := true } haligned.reachable hreach
    refine ⟨hpushed, fun hretry => hlost ?_⟩
    cases hwritable : env.writable with
    | false => rfl
    | true =>
      rw [hwritable] at hretry
      cases hretry

theorem Placed.deliverStep (h : s.Placed event k) (haligned : s.Aligned event)
    (hsound : (s.ticket k).Sound (event k).targetConnectionId) (hhand : s.hand = .claimed j)
    (hstep : s.deliverStep event j env = some s') : s'.Placed event k := by
  obtain ⟨net, hnet, hs'⟩ := Option.map_eq_some_iff.mp hstep
  have hnet' : s'.net = net := hs' ▸ rfl
  have hhand' : s'.hand = .decided j (s.outcome event j env) := hs' ▸ rfl
  have hcallers : s'.callers = (s.setCaller j { s.callers j with
      appended := (s.callers j).appended ++ s.spots event j env }).callers := hs' ▸ rfl
  by_cases hk : k = j
  · subst hk
    -- nothing was appended before
    have hcore := hsound.stage.of_claimed (show s.hand.of k = _ by rw [hhand]; exact if_pos rfl)
    have hnone : (s.callers k).appended = [] := congrArg Core.appended hcore
    have hopen : (s.callers k).completion = none := congrArg Core.completion hcore
    have hcaller := (congrFun hcallers k).trans callers_setCaller
    have happended : (s'.callers k).appended = s.spots event k env := by
      rw [hcaller, hnone]
      rfl
    have hplaced := placed_deliver haligned hhand hnet
    refine ⟨fun spot hspot => ?_, fun hretry spot hspot => ?_⟩
    all_goals rw [happended] at hspot
    · exact hnet' ▸ (hplaced spot hspot).1
    · refine hnet' ▸ (hplaced spot hspot).2 ?_
      rcases hretry with hheld | hset
      · rw [hhand'] at hheld
        obtain ⟨-, hheld⟩ := Option.ite_none_right_eq_some.mp hheld
        exact Option.some.inj (Option.some.inj hheld)
      · rw [hcaller] at hset
        exact absurd (hopen.symm.trans hset) nofun
  · have hcaller := (congrFun hcallers k).trans (callers_setCaller_ne hk)
    refine h.of_shared (hnet' ▸ Server.keeps_of_step (sound_net haligned) hnet) ?_ fun hretry => ?_
    · rw [hcaller]
      exact ⟨rfl, rfl⟩
    · rw [hhand'] at hretry
      obtain ⟨hkj, -⟩ := Option.ite_none_right_eq_some.mp hretry
      exact absurd hkj.symm hk

/-- A thread fulfils the promise. -/
theorem Placed.setValue (h : s.Placed event k) {outcome : RemoteDeliveryOutcome}
    (hnet : s'.net = s.net)
    (hcallers : s'.callers = (s.setCaller j ((s.callers j).setValue outcome)).callers)
    (hhand : s'.hand.of k = some (some .retry) → s.hand.of k = some (some .retry))
    (hsettled : k = j → outcome = .retry → s.Retried k ∨ (s.callers k).appended = []) :
    s'.Placed event k := by
  have hkeeps : s.net.Keeps s'.net := hnet ▸ Server.keeps_of_queue _ _
  by_cases hk : k = j
  · have hmine := hsettled hk
    subst hk
    have hcaller : s'.callers k = (s.callers k).setValue outcome :=
      (congrFun hcallers k).trans callers_setCaller
    refine h.of_eq hkeeps (by rw [hcaller]; rfl) fun hretried => ?_
    rcases hretried with hheld | hset
    · exact .inl (.inl (hhand hheld))
    · have hset : (s.callers k).completion.or (some outcome) = some .retry :=
        (congrArg Caller.completion hcaller).symm.trans hset
      cases hold : (s.callers k).completion with
      | none =>
        rw [hold] at hset
        exact hmine (Option.some.inj hset)
      | some o =>
        rw [hold] at hset
        exact .inl (.inr (hold.trans hset))
  · have hcaller : s'.callers k = s.callers k :=
      (congrFun hcallers k).trans (callers_setCaller_ne hk)
    exact h.of_shared hkeeps (hcaller ▸ ⟨rfl, rfl⟩) hhand

theorem placed_step (haligned : s.Aligned event)
    (hsound : (s.ticket k).Sound (event k).targetConnectionId) (h : s.Placed event k)
    (hstep : s.step event l = some s') : s'.Placed event k := by
  cases l with
  | net l =>
    obtain ⟨-, hstep⟩ := Option.ite_none_right_eq_some.mp hstep
    obtain ⟨net, hnet, rfl⟩ := Option.map_eq_some_iff.mp hstep
    have hkeeps := Server.keeps_of_step (sound_net haligned) hnet
    unfold follow
    split
    · split <;> exact h.of_shared hkeeps ⟨rfl, rfl⟩ id
    · exact h.of_shared hkeeps ⟨rfl, rfl⟩ id
  | eventFd opened =>
    cases hstep
    exact h.of_shared (Server.keeps_of_queue _ _) ⟨rfl, rfl⟩ id
  | call j | enter j | notify j written | timeout j | enqueue j =>
    obtain ⟨-, ⟨⟩⟩ := Option.ite_none_right_eq_some.mp hstep
    exact h.of_shared (Server.keeps_of_queue _ _) (shared_setCaller rfl rfl) id
  | withdraw j | expire j =>
    obtain ⟨-, ⟨⟩⟩ := Option.ite_none_right_eq_some.mp hstep
    unfold abandonOr
    split <;> exact h.of_shared (Server.keeps_of_queue _ _) (shared_setCaller rfl rfl) id
  | get j =>
    obtain ⟨-, hstep⟩ := Option.ite_none_right_eq_some.mp hstep
    obtain ⟨outcome, -, rfl⟩ := Option.map_eq_some_iff.mp hstep
    exact h.of_shared (Server.keeps_of_queue _ _) (shared_setCaller rfl rfl) id
  | claim =>
    obtain ⟨-, hstep⟩ := Option.ite_none_right_eq_some.mp hstep
    exact h.claimStep haligned hstep
  | deliver env =>
    simp only [step] at hstep
    split at hstep
    · rename_i j hhand
      exact h.deliverStep haligned hsound hhand hstep
    · cases hstep
  | fulfil =>
    simp only [step] at hstep
    split at hstep
    · rename_i j outcome hhand
      cases hstep
      have hfree : Hand.free.of k ≠ some (some .retry) := Option.some_ne_none _ ∘ Eq.symm
      refine h.setValue rfl rfl (absurd · hfree) fun hk houtcome => .inl (.inl ?_)
      subst hk houtcome
      rw [hhand]
      exact if_pos rfl
    · cases hstep
  | stop =>
    simp only [step] at hstep
    split at hstep
    · cases hstep
      exact h
    · cases hstep
      exact h.of_shared (Server.keeps_of_queue _ _) ⟨rfl, rfl⟩ id
  | swap =>
    obtain ⟨-, ⟨⟩⟩ := Option.ite_none_right_eq_some.mp hstep
    exact h.of_shared (Server.keeps_of_queue _ _) ⟨rfl, rfl⟩ id
  | sweep =>
    simp only [step] at hstep
    split at hstep
    · cases hstep
      unfold sweepStep
      split
      · exact h.of_shared (Server.keeps_of_queue _ _) (shared_setCaller rfl rfl) id
      · exact h.of_shared (Server.keeps_of_queue _ _) ⟨rfl, rfl⟩ id
    · cases hstep
  | refuse =>
    simp only [step] at hstep
    split at hstep
    · rename_i j tasks hstopper
      cases hstep
      refine h.setValue rfl rfl id fun hk _ => .inr ?_
      subst hk
      have hcore := hsound.stage.of_swept
        (show s.stopper.refuses k = _ by rw [hstopper]; exact decide_eq_true rfl)
      exact congrArg Core.appended hcore
    · cases hstep

theorem placed (hs : (delivery event).Reachable s) (k : Nat) : s.Placed event k := by
  refine Base.Lts.Inductive.relative
    (J := fun s => s.Aligned event ∧ (s.ticket k).Sound (event k).targetConnectionId)
    (I := fun s => s.Placed event k)
    (fun s hs => ⟨(inductive_aligned event).invariant hs, ticket_sound hs k⟩) ?_ ?_ hs
  · rintro s rfl
    exact ⟨nofun, fun _ => nofun⟩
  · rintro s l s' ⟨haligned, hsound⟩ _ h _ hstep
    exact placed_step haligned hsound h hstep

/-! ## Progress -/

/-- A call that has returned stays so. -/
theorem returned_of_run {labels : List Label} {outcome : RemoteDeliveryOutcome}
    (hs : (delivery event).Reachable s) (hpos : (s.callers k).pos = .returned outcome)
    (hrun : (delivery event).run s labels = some s') : (s'.callers k).pos = .returned outcome := by
  have hkept := Base.Lts.of_run
    (P := fun s => s.Aligned event ∧ (s.callers k).pos = .returned outcome)
    (fun s l s' h hstep => ⟨(inductive_aligned event).step s l s' h.1 trivial hstep,
      Ticket.Moves.returned (step_ticket h.1.stopping hstep) h.2⟩)
    ⟨(inductive_aligned event).invariant hs, hpos⟩ hrun
  exact hkept.2

/-- A value that is set stays set. -/
theorem completion_step (haligned : s.Aligned event) (hstep : s.step event l = some s')
    (hset : (s.callers k).completion.isSome = true) : (s'.callers k).completion.isSome = true :=
  Ticket.Moves.completion (step_ticket haligned.stopping hstep) hset

theorem abandonOr_eq {pos : CallerPos} :
    (s.abandonOr j pos).hand = s.hand ∧ (s.abandonOr j pos).net = s.net ∧
      (s.abandonOr j pos).stopper = s.stopper := by
  unfold abandonOr
  split <;> exact ⟨rfl, rfl, rfl⟩

/-- The I/O thread and the thread in `stop()` are moved by their own steps. -/
theorem step_threads (hstep : s.step event l = some s') :
    (l.thread ≠ .io → s'.hand = s.hand ∧ s'.net.io = s.net.io) ∧
      (l.thread ≠ .stopper → s.net.stopping = true → s'.stopper = s.stopper) := by
  cases l with
  | net l =>
    obtain ⟨-, hstep⟩ := Option.ite_none_right_eq_some.mp hstep
    obtain ⟨net, hnet, rfl⟩ := Option.map_eq_some_iff.mp hstep
    obtain ⟨hsame, hhand, hstopper⟩ := follow_eq (s := s) l net
    refine ⟨fun hl => ⟨hhand, ?_⟩, fun _ _ => hstopper⟩
    have hoff : l.offLoop = true := by
      by_contra hno
      exact hl (if_neg hno)
    rw [hsame, (Server.step_offLoop hnet hoff).1]
  | eventFd opened =>
    cases hstep
    exact ⟨fun _ => ⟨rfl, rfl⟩, fun _ _ => rfl⟩
  | call j | enter j | enqueue j | notify j written | timeout j =>
    obtain ⟨-, ⟨⟩⟩ := Option.ite_none_right_eq_some.mp hstep
    exact ⟨fun _ => ⟨rfl, rfl⟩, fun _ _ => rfl⟩
  | withdraw j | expire j =>
    obtain ⟨-, ⟨⟩⟩ := Option.ite_none_right_eq_some.mp hstep
    obtain ⟨hhand, hnet, hstopper⟩ := abandonOr_eq (s := s) (j := j)
    exact ⟨fun _ => ⟨hhand, by rw [hnet]⟩, fun _ _ => hstopper⟩
  | get j =>
    obtain ⟨-, hstep⟩ := Option.ite_none_right_eq_some.mp hstep
    obtain ⟨outcome, -, rfl⟩ := Option.map_eq_some_iff.mp hstep
    exact ⟨fun _ => ⟨rfl, rfl⟩, fun _ _ => rfl⟩
  | claim =>
    obtain ⟨-, hstep⟩ := Option.ite_none_right_eq_some.mp hstep
    refine ⟨fun hl => absurd rfl hl, fun _ _ => ?_⟩
    unfold claimStep at hstep
    split at hstep
    · cases hstep
    · split at hstep
      · cases hstep
        rfl
      · obtain ⟨net, -, rfl⟩ := Option.map_eq_some_iff.mp hstep
        rfl
  | deliver env =>
    refine ⟨fun hl => absurd rfl hl, fun _ _ => ?_⟩
    simp only [step] at hstep
    split at hstep
    · obtain ⟨net, -, rfl⟩ := Option.map_eq_some_iff.mp hstep
      rfl
    · cases hstep
  | fulfil =>
    refine ⟨fun hl => absurd rfl hl, fun _ _ => ?_⟩
    simp only [step] at hstep
    split at hstep <;> cases hstep
    rfl
  | stop =>
    simp only [step] at hstep
    split at hstep
    · cases hstep
      exact ⟨fun _ => ⟨rfl, rfl⟩, fun _ _ => rfl⟩
    · rename_i hrunning
      cases hstep
      exact ⟨fun _ => ⟨rfl, rfl⟩, fun _ hstopping => absurd hstopping hrunning⟩
  | swap =>
    obtain ⟨-, ⟨⟩⟩ := Option.ite_none_right_eq_some.mp hstep
    exact ⟨fun _ => ⟨rfl, rfl⟩, fun hl => absurd rfl hl⟩
  | sweep =>
    refine ⟨fun _ => ?_, fun hl => absurd rfl hl⟩
    simp only [step] at hstep
    split at hstep
    · cases hstep
      unfold sweepStep
      split <;> exact ⟨rfl, rfl⟩
    · cases hstep
  | refuse =>
    refine ⟨fun _ => ?_, fun hl => absurd rfl hl⟩
    simp only [step] at hstep
    split at hstep <;> cases hstep
    exact ⟨rfl, rfl⟩

/-- While the I/O thread is with a task it takes the steps for that task. -/
theorem step_of_busy (hstep : s.step event l = some s') (hl : l.thread = .io)
    (hbusy : s.hand ≠ .free) :
    (∃ k env, s.hand = .claimed k ∧ s.deliverStep event k env = some s') ∨
      ∃ k outcome, s.hand = .decided k outcome ∧
        s' = { s.setCaller k ((s.callers k).setValue outcome) with hand := .free } := by
  cases l with
  | net l =>
    obtain ⟨hadmits, -⟩ := Option.ite_none_right_eq_some.mp hstep
    have hother : (Label.net l).thread = .other := if_pos (offLoop_of_admits hadmits hbusy)
    rw [hother] at hl
    cases hl
  | claim =>
    obtain ⟨hguard, -⟩ := Option.ite_none_right_eq_some.mp hstep
    exact absurd hguard.1 hbusy
  | deliver env =>
    simp only [step] at hstep
    split at hstep
    · rename_i j hhand
      exact .inl ⟨j, env, hhand, hstep⟩
    · cases hstep
  | fulfil =>
    simp only [step] at hstep
    split at hstep
    · rename_i j outcome hhand
      exact .inr ⟨j, outcome, hhand, (Option.some.inj hstep).symm⟩
    · cases hstep
  | _ => cases hl

/-- The number of steps that the I/O thread has to take for call `k`. -/
def IoOwes (k : Nat) (s : Delivery) : Nat → Prop
  | 0 => (s.callers k).completion.isSome = true
  | 1 => ∃ outcome, s.hand = .decided k outcome
  | 2 => s.hand = .claimed k ∧ s.net.io.atRemote = true
  | _ => False

theorem ioOwes_step (haligned : s.Aligned event) (h : s.IoOwes k n)
    (hstep : s.step event l = some s') : s'.IoOwes k (n - (decide (l.thread = .io)).toNat) := by
  match n with
  | 0 =>
    rw [Nat.zero_sub]
    exact completion_step haligned hstep h
  | 1 =>
    obtain ⟨outcome, hhand⟩ := h
    by_cases hl : l.thread = .io
    · rw [decide_eq_true hl]
      have hbusy : s.hand ≠ .free := by rw [hhand]; nofun
      rcases step_of_busy hstep hl hbusy with ⟨j, env, hno, -⟩ | ⟨j, o, hj, rfl⟩
      · rw [hhand] at hno
        cases hno
      · obtain ⟨rfl, rfl⟩ := Hand.decided.inj (hhand.symm.trans hj)
        show ((s.setCaller k _).callers k).completion.isSome = true
        rw [callers_setCaller]
        simp [Caller.setValue]
    · rw [decide_eq_false hl]
      exact ⟨outcome, ((step_threads hstep).1 hl).1.trans hhand⟩
  | 2 =>
    obtain ⟨hhand, hremote⟩ := h
    by_cases hl : l.thread = .io
    · rw [decide_eq_true hl]
      have hbusy : s.hand ≠ .free := by rw [hhand]; nofun
      rcases step_of_busy hstep hl hbusy with ⟨j, env, hj, hstep⟩ | ⟨j, o, hno, -⟩
      · obtain rfl := Hand.claimed.inj (hhand.symm.trans hj)
        obtain ⟨net, -, rfl⟩ := Option.map_eq_some_iff.mp hstep
        exact ⟨_, rfl⟩
      · rw [hhand] at hno
        cases hno
    · rw [decide_eq_false hl]
      obtain ⟨hhand', hio⟩ := (step_threads hstep).1 hl
      exact ⟨hhand'.trans hhand, (congrArg Io.atRemote hio).trans hremote⟩
  | n + 3 => exact h.elim

/-- The promise of call `k` is fulfilled. -/
def Fulfilled (k : Nat) (s : Delivery) : Prop := (s.callers k).completion.isSome = true

theorem assured_io (haligned : s.Aligned event) (h : s.IoOwes k n) :
    (delivery event).Assured (fun l => decide (l.thread = .io)) (Fulfilled k) n s := by
  refine Base.Lts.Assured.of_countdown (J := fun n s => s.Aligned event ∧ s.IoOwes k n)
    (fun n s l s' hs hstep => ⟨(inductive_aligned event).step s l s' hs.1 trivial hstep,
      ioOwes_step hs.1 hs.2 hstep⟩) (fun s hs => hs.2) (fun n s hs hopen => ?_) ⟨haligned, h⟩
  obtain ⟨-, howes⟩ := hs
  match n with
  | 0 => exact absurd howes hopen
  | 1 =>
    obtain ⟨outcome, hhand⟩ := howes
    refine ⟨.fulfil, rfl, ?_⟩
    simp only [delivery, step, hhand, Option.isSome_some]
  | 2 =>
    obtain ⟨hhand, hremote⟩ := howes
    obtain ⟨e, ops, hio⟩ := Io.of_atRemote hremote
    refine ⟨.deliver {}, rfl, ?_⟩
    simp only [delivery, step, hhand, deliverStep, Option.isSome_map]
    simp only [Server.step, Server.ioStep, hio, Option.isSome_some]
  | n + 3 => exact howes.elim

/-- Having abandoned a task, `stop()` fulfils its promise. -/
theorem refuse_of_abandoned {tasks : List Nat} (hstep : s.step event l = some s')
    (hl : l.thread = .stopper) (hstopper : s.stopper = .abandoned k tasks) :
    s' = { s.setCaller k ((s.callers k).setValue .retry) with stopper := .sweeping tasks } := by
  cases l with
  | net l =>
    simp only [Label.thread] at hl
    split at hl <;> cases hl
  | swap =>
    obtain ⟨hno, -⟩ := Option.ite_none_right_eq_some.mp hstep
    rw [hstopper] at hno
    cases hno
  | sweep =>
    simp only [step, hstopper] at hstep
    cases hstep
  | refuse =>
    simp only [step, hstopper] at hstep
    exact (Option.some.inj hstep).symm
  | _ => cases hl

/-- The number of steps that `stop()` has to take for call `k`. -/
def StopOwes (k : Nat) (s : Delivery) : Nat → Prop
  | 0 => (s.callers k).completion.isSome = true
  | 1 => ∃ tasks, s.stopper = .abandoned k tasks
  | _ => False

theorem stopOwes_step (haligned : s.Aligned event) (h : s.StopOwes k n)
    (hstep : s.step event l = some s') :
    s'.StopOwes k (n - (decide (l.thread = .stopper)).toNat) := by
  match n with
  | 0 =>
    rw [Nat.zero_sub]
    exact completion_step haligned hstep h
  | 1 =>
    obtain ⟨tasks, hstopper⟩ := h
    by_cases hl : l.thread = .stopper
    · rw [decide_eq_true hl]
      obtain rfl := refuse_of_abandoned hstep hl hstopper
      show ((s.setCaller k _).callers k).completion.isSome = true
      rw [callers_setCaller]
      simp [Caller.setValue]
    · rw [decide_eq_false hl]
      have hstopping := haligned.stopping (by rw [hstopper]; nofun)
      exact ⟨tasks, ((step_threads hstep).2 hl hstopping).trans hstopper⟩
  | n + 2 => exact h.elim

theorem assured_stop (haligned : s.Aligned event) (h : s.StopOwes k n) :
    (delivery event).Assured (fun l => decide (l.thread = .stopper)) (Fulfilled k) n s := by
  refine Base.Lts.Assured.of_countdown (J := fun n s => s.Aligned event ∧ s.StopOwes k n)
    (fun n s l s' hs hstep => ⟨(inductive_aligned event).step s l s' hs.1 trivial hstep,
      stopOwes_step hs.1 hs.2 hstep⟩) (fun s hs => hs.2) (fun n s hs hopen => ?_) ⟨haligned, h⟩
  obtain ⟨-, howes⟩ := hs
  match n with
  | 0 => exact absurd howes hopen
  | 1 =>
    obtain ⟨tasks, hstopper⟩ := howes
    refine ⟨.refuse, rfl, ?_⟩
    simp only [delivery, step, hstopper, Option.isSome_some]
  | n + 2 => exact howes.elim

/-- A caller in `wait` waits for two steps of one thread at most. -/
theorem assured_of_blocked (hs : (delivery event).Reachable s)
    (hpos : (s.callers k).pos = .blocked) :
    ∃ thread, (delivery event).Assured (fun l => decide (l.thread = thread)) (Fulfilled k) 2 s := by
  have haligned := (inductive_aligned event).invariant hs
  rcases (ticket_sound hs k).of_blocked hpos with hset | hclaimed | ⟨outcome, hdecided⟩ | hswept
  · exact ⟨.io, (assured_io (n := 0) haligned hset).mono (Nat.zero_le 2)⟩
  · have hhand : s.hand = .claimed k := Hand.of_eq_claimed hclaimed
    exact ⟨.io, assured_io (n := 2) haligned ⟨hhand, (haligned.hand k hhand).1⟩⟩
  · have hhand : s.hand = .decided k outcome := Hand.of_eq_decided hdecided
    exact ⟨.io, (assured_io (n := 1) haligned ⟨outcome, hhand⟩).mono (Nat.le_succ 1)⟩
  · have hstopper := Stopper.of_refuses hswept
    exact ⟨.stopper, (assured_stop (n := 1) haligned hstopper).mono (Nat.le_succ 1)⟩

end Delivery

/-! ## Guarantees -/

open Delivery

/-- For every event and every schedule of the callers, the I/O thread, the
workers and `stop()`: if a call returns `kRetry`, no byte of what was appended
for it is sent then or later; if it returns `kDelivered`, its payload was
appended once, to the send buffer of its target; its promise is fulfilled at most
once; and if it has given up its timed wait, two steps of one thread fulfil
it. -/
theorem remote_push_settled_once {event : Nat → RemotePush} {s : Delivery}
    (hs : (delivery event).Reachable s) (k : Nat) :
    ((s.callers k).pos = .returned .retry → ∀ labels t, (delivery event).run s labels = some t →
      ∀ spot ∈ (t.callers k).appended, t.net.Unsent spot) ∧
    ((s.callers k).pos = .returned .delivered →
      ∃ i, (s.callers k).appended = [⟨(event k).targetConnectionId, i⟩] ∧
        (s.net.history (event k).targetConnectionId).trace[i]? = some (.push (event k).payload)) ∧
    (s.callers k).sets ≤ 1 ∧
    ((s.callers k).pos = .blocked → ∃ thread,
      (delivery event).Assured (fun l => decide (l.thread = thread))
        (fun t => (t.callers k).completion.isSome = true) 2 s) := by
  refine ⟨fun hpos labels t hrun spot hspot => ?_, fun hpos => ?_,
    (ticket_sound hs k).stage.sets_le_one, assured_of_blocked hs⟩
  · have ht := Base.Lts.reach_of_run hs Base.Lts.runOk_true hrun
    have hlater := returned_of_run hs hpos hrun
    rcases (ticket_sound ht k).of_retry hlater with hset | hnone
    · exact ((placed ht k).lost (.inr hset) spot hspot).unsent
    · rw [show (t.callers k).appended = [] from hnone] at hspot
      cases hspot
  · obtain ⟨i, happended⟩ := (ticket_sound hs k).of_delivered hpos
    have hmem : (⟨(event k).targetConnectionId, i⟩ : Spot) ∈ (s.callers k).appended := by
      rw [show (s.callers k).appended = _ from happended]
      exact List.mem_singleton_self _
    exact ⟨i, happended, ((placed hs k).pushed _ hmem).event⟩

/-- Call `k` up to its timed wait. -/
def waits (k : Nat) : List Label := [.call k, .enter k, .enqueue k, .notify k true]

/-- Call 0 is delivered, call 1 gives up in time and call 2 too late. -/
def threeCalls : List Label :=
  [.eventFd true, .net (.accept [])] ++ waits 0 ++
  [.net .workerResult, .net (.io {}), .claim, .deliver {}, .fulfil, .get 0] ++
  [.net (.io {}), .net (.io {}), .net (.io {})] ++ waits 1 ++ waits 2 ++
  [.timeout 1, .expire 1, .net .workerResult, .net (.io {}), .claim, .claim, .timeout 2, .expire 2]

theorem remote_push_settled_once_threeCalls :
    ∃ s : Delivery, (s.callers 0).pos = .returned .delivered ∧
      (s.callers 1).pos = .returned .retry ∧ (s.callers 2).pos = .blocked ∧
      (∃ i, (s.callers 0).appended = [⟨1, i⟩]) ∧
      (∀ spot ∈ (s.callers 1).appended, s.net.Unsent spot) ∧
      ∃ thread, (delivery fun _ => ⟨1, 7, [112]⟩).Assured (fun l => decide (l.thread = thread))
        (fun t => (t.callers 2).completion.isSome = true) 2 s := by
  obtain ⟨s, hs, h⟩ := Base.Lts.exists_reach_of_run (M := delivery fun _ => ⟨1, 7, [112]⟩)
    (fun s => decide ((s.callers 0).pos = .returned .delivered ∧
      (s.callers 1).pos = .returned .retry ∧ (s.callers 2).pos = .blocked)) threeCalls rfl
    Base.Lts.runOk_true (by decide +kernel)
  obtain ⟨hdelivered, hretry, hblocked⟩ := of_decide_eq_true h
  obtain ⟨i, happended, -⟩ := (remote_push_settled_once hs 0).2.1 hdelivered
  exact ⟨s, hdelivered, hretry, hblocked, ⟨i, happended⟩,
    (remote_push_settled_once hs 1).1 hretry [] s rfl,
    (remote_push_settled_once hs 2).2.2.2 hblocked⟩

end ChatServer.Remote
