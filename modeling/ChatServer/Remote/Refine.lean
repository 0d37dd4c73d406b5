import ChatServer.Remote.Ticket

/-!
# Deliveries refine tickets

`Delivery.ticket k` is the ticket of call `k`. `step_ticket` says that a step of
the delivery is a sequence of moves of every ticket; `Aligned` relates the tasks
known here to the remote pushes in the network layer, whose state is reachable
there.
-/

namespace ChatServer.Remote

open Net Service

/-- Where the I/O thread is with the task of call `k`. -/
def Hand.of (k : Nat) : Hand → Option (Option RemoteDeliveryOutcome)
  | .free => none
  | .claimed j => if j = k then some none else none
  | .decided j outcome => if j = k then some (some outcome) else none

namespace Hand

variable {hand : Hand} {k : Nat}

theorem of_eq_claimed (h : hand.of k = some none) : hand = .claimed k := by
  cases hand with
  | free => cases h
  | claimed j =>
    obtain ⟨rfl, -⟩ := Option.ite_none_right_eq_some.mp h
    rfl
  | decided j outcome =>
    obtain ⟨-, hno⟩ := Option.ite_none_right_eq_some.mp h
    cases hno

theorem of_eq_decided {outcome : RemoteDeliveryOutcome} (h : hand.of k = some (some outcome)) :
    hand = .decided k outcome := by
  cases hand with
  | free => cases h
  | claimed j =>
    obtain ⟨-, hno⟩ := Option.ite_none_right_eq_some.mp h
    cases hno
  | decided j o =>
    obtain ⟨rfl, ho⟩ := Option.ite_none_right_eq_some.mp h
    obtain rfl : o = outcome := Option.some.inj (Option.some.inj ho)
    rfl

end Hand

namespace Stopper

/-- `stop()` is about to refuse the task. -/
def refuses (k : Nat) : Stopper → Bool
  | .abandoned j _ => decide (j = k)
  | _ => false

/-- The tasks swapped out and not looked at. -/
def tasks : Stopper → List Nat
  | .sweeping tasks => tasks
  | .abandoned _ tasks => tasks
  | _ => []

theorem of_refuses {stopper : Stopper} {k : Nat} (h : stopper.refuses k = true) :
    ∃ tasks, stopper = .abandoned k tasks := by
  cases stopper with
  | abandoned j tasks =>
    obtain rfl : j = k := of_decide_eq_true h
    exact ⟨tasks, rfl⟩
  | _ => cases h

end Stopper

namespace Delivery

def core (s : Delivery) (k : Nat) : Core where
  state := (s.callers k).state
  completion := (s.callers k).completion
  sets := (s.callers k).sets
  appended := (s.callers k).appended
  io := s.hand.of k
  sweeping := s.stopper.refuses k

def listed (s : Delivery) (k : Nat) : Bool :=
  decide (k ∈ s.remotePushTasks ++ s.taken ++ s.stopper.tasks)

def ticket (s : Delivery) (k : Nat) : Ticket := ⟨(s.callers k).pos, s.core k, s.listed k⟩

variable {event : Nat → RemotePush} {s s' : Delivery} {k : Nat} {target : ConnId}

variable {c : Caller} {pos : CallerPos} {j : Nat} {env : Env} {net : Server}

theorem core_eq {io : Option (Option RemoteDeliveryOutcome)} {sweeping : Bool}
    (hcaller : s.callers k = c) (hio : s.hand.of k = io)
    (hsweeping : s.stopper.refuses k = sweeping) :
    s.core k = ⟨c.state, c.completion, c.sets, c.appended, io, sweeping⟩ := by
  rw [core, hcaller, hio, hsweeping]

/-! ## Moves -/

/-- A change to the caller and the task that may also drop the task from a
list. -/
theorem moves_of_move {core : Core} {listed : Bool}
    (hmove : Ticket.Move target (s.ticket k) ⟨pos, core, listed⟩)
    (hpos : (s'.callers k).pos = pos) (hcore : s'.core k = core)
    (hlisted : s'.listed k = true → listed = true) :
    Ticket.Moves target (s.ticket k) (s'.ticket k) := by
  have hticket : s'.ticket k = ⟨pos, core, s'.listed k⟩ := by rw [ticket, hpos, hcore]
  rw [hticket]
  cases hs' : s'.listed k with
  | false => exact .tail (.single hmove) .drop
  | true =>
    rw [hlisted hs'] at hmove
    exact .single hmove

/-- Steps that are about other calls. -/
theorem moves_of_eq (hcaller : s'.callers k = s.callers k) (hhand : s'.hand.of k = s.hand.of k)
    (hstopper : s'.stopper.refuses k = s.stopper.refuses k)
    (hlisted : s'.listed k = true → s.listed k = true) :
    Ticket.Moves target (s.ticket k) (s'.ticket k) := by
  have hticket : s'.ticket k = ⟨(s.callers k).pos, s.core k, s'.listed k⟩ := by
    unfold ticket core
    rw [hcaller, hhand, hstopper]
  rw [hticket]
  cases hs' : s'.listed k with
  | false => exact .single (.drop (t := s.ticket k))
  | true =>
    rw [← hlisted hs']
    exact .refl

theorem callers_setCaller_ne (h : k ≠ j) :
    (s.setCaller j c).callers k = s.callers k := Function.update_of_ne h ..

theorem callers_setCaller : (s.setCaller k c).callers k = c := Function.update_self ..

theorem moves_goTo (hgoes : (s.callers j).pos.Goes (s.core j) pos) :
    Ticket.Moves target (s.ticket k) ((s.goTo j pos).ticket k) := by
  by_cases hk : k = j
  · subst hk
    refine moves_of_move (.goes (t := s.ticket k) pos hgoes) ?_ ?_ id
    · rw [goTo, callers_setCaller]
    · exact (core_eq callers_setCaller rfl rfl).trans rfl
  · exact moves_of_eq (callers_setCaller_ne hk) rfl rfl id

theorem moves_abandonOr (hpos : (s.callers j).pos = .withdrawing ∨ (s.callers j).pos = .expiring)
    (hgoes : (s.callers j).state ≠ .pending → (s.callers j).pos.Goes (s.core j) pos) :
    Ticket.Moves target (s.ticket k) ((s.abandonOr j pos).ticket k) := by
  unfold abandonOr
  split
  · rename_i hstate
    by_cases hk : k = j
    · subst hk
      refine moves_of_move (.abandon (t := s.ticket k) hpos hstate) ?_ ?_ id
      · rw [callers_setCaller]
      · exact core_eq callers_setCaller rfl rfl
    · exact moves_of_eq (callers_setCaller_ne hk) rfl rfl id
  · rename_i hstate
    exact moves_goTo (hgoes hstate)

/-- A thread changes the task of call `j` and leaves the caller alone. -/
theorem moves_of_task {io : Option (Option RemoteDeliveryOutcome)} {sweeping : Bool}
    (hcallers : s'.callers = (s.setCaller j c).callers) (hpos : c.pos = (s.callers j).pos)
    (hhand : s'.hand.of j = io) (hhand' : k ≠ j → s'.hand.of k = s.hand.of k)
    (hstopper : s'.stopper.refuses j = sweeping)
    (hstopper' : k ≠ j → s'.stopper.refuses k = s.stopper.refuses k)
    (hlisted : s'.listed k = true → s.listed k = true)
    (hmove : k = j → Ticket.Move target (s.ticket j)
      ⟨(s.callers j).pos, ⟨c.state, c.completion, c.sets, c.appended, io, sweeping⟩, s.listed j⟩) :
    Ticket.Moves target (s.ticket k) (s'.ticket k) := by
  by_cases hk : k = j
  · have hmove := hmove hk
    subst hk
    have hcaller : s'.callers k = c := (congrFun hcallers k).trans callers_setCaller
    exact moves_of_move hmove ((congrArg Caller.pos hcaller).trans hpos)
      (core_eq hcaller hhand hstopper) hlisted
  · have hcaller : s'.callers k = s.callers k :=
      (congrFun hcallers k).trans (callers_setCaller_ne hk)
    exact moves_of_eq hcaller (hhand' hk) (hstopper' hk) hlisted

/-! ## Steps -/

theorem follow_eq (l : Net.Label) (net : Server) :
    (s.follow l net).net = net ∧ (s.follow l net).hand = s.hand ∧
      (s.follow l net).stopper = s.stopper := by
  unfold follow
  split
  · split <;> exact ⟨rfl, rfl, rfl⟩
  · exact ⟨rfl, rfl, rfl⟩

theorem moves_follow (l : Net.Label) (net : Server) :
    Ticket.Moves target (s.ticket k) ((s.follow l net).ticket k) := by
  unfold follow
  split
  · split
    · refine moves_of_eq rfl rfl rfl ?_
      simp [listed]
    · exact moves_of_eq rfl rfl rfl id
  · exact moves_of_eq rfl rfl rfl id

theorem moves_enqueue (net : Server) (hpos : (s.callers j).pos = .enqueueing) :
    Ticket.Moves target (s.ticket k)
      (({ s.goTo j .notifying with
        net := net, remotePushTasks := s.remotePushTasks ++ [j] } : Delivery).ticket k) := by
  by_cases hk : k = j
  · subst hk
    refine moves_of_move (.enqueue (t := s.ticket k) hpos) ?_ ?_ fun _ => rfl
    · exact congrArg Caller.pos (callers_setCaller (s := s))
    · exact (core_eq (callers_setCaller (s := s)) rfl rfl).trans rfl
  · refine moves_of_eq (callers_setCaller_ne hk) rfl rfl ?_
    simp [listed, goTo, setCaller, hk]

theorem moves_claimStep (h : s.claimStep = some s') (hfree : s.hand = .free) :
    Ticket.Moves target (s.ticket k) (s'.ticket k) := by
  unfold claimStep at h
  split at h
  · cases h
  · rename_i j rest htaken
    have hlisted : s.listed j = true := by simp [listed, htaken]
    have hnone : s.hand.of k = none := by rw [hfree]; rfl
    split at h
    · rename_i hstate
      cases h
      exact moves_of_task rfl rfl (if_pos rfl) (fun hk => (if_neg (Ne.symm hk)).trans hnone.symm)
        rfl (fun _ => rfl) id fun _ => .claim (t := s.ticket j) hlisted hstate
    · obtain ⟨net, -, rfl⟩ := Option.map_eq_some_iff.mp h
      refine moves_of_eq rfl rfl rfl ?_
      simp only [listed, htaken, decide_eq_true_eq, List.mem_append, List.mem_cons]
      tauto

theorem places_spots (j : Nat) (env : Env) :
    Places (event j).targetConnectionId (s.outcome event j env) (s.spots event j env) := by
  unfold outcome spots
  cases s.reaches event j env with
  | false => rfl
  | true => cases env.writable <;> exact ⟨_, rfl⟩

theorem moves_deliverStep (h : s.deliverStep event j env = some s') (hhand : s.hand = .claimed j) :
    Ticket.Moves (event k).targetConnectionId (s.ticket k) (s'.ticket k) := by
  obtain ⟨net, -, rfl⟩ := Option.map_eq_some_iff.mp h
  have hother : k ≠ j → s.hand.of k = none := fun hk => by
    rw [hhand]
    exact if_neg (Ne.symm hk)
  refine moves_of_task rfl rfl (if_pos rfl) (fun hk => (if_neg (Ne.symm hk)).trans (hother hk).symm)
    rfl (fun _ => rfl) ?_ fun hk => ?_
  · simp only [listed, decide_eq_true_eq, List.mem_append]
    exact Or.imp_left (Or.imp_right List.mem_of_mem_tail)
  · subst hk
    refine .decide (t := s.ticket k) _ _ ?_ (places_spots k env)
    show s.hand.of k = _
    rw [hhand]
    exact if_pos rfl

theorem moves_sweepStep {tasks : List Nat} (hstopper : s.stopper = .sweeping (j :: tasks)) :
    Ticket.Moves target (s.ticket k) ((s.sweepStep j tasks).ticket k) := by
  have hlisted : s.listed j = true := by simp [listed, hstopper, Stopper.tasks]
  have hnone : s.stopper.refuses k = false := by rw [hstopper]; rfl
  unfold sweepStep
  split
  · rename_i hstate
    refine moves_of_task rfl rfl rfl (fun _ => rfl) (decide_eq_true rfl)
      (fun hk => (decide_eq_false (Ne.symm hk)).trans hnone.symm) ?_
      fun _ => .sweep (t := s.ticket j) hlisted hstate
    simp only [listed, hstopper, Stopper.tasks, decide_eq_true_eq, List.mem_append]
    exact Or.imp_right (List.mem_cons_of_mem j)
  · refine moves_of_eq rfl rfl hnone.symm ?_
    simp only [listed, hstopper, Stopper.tasks, decide_eq_true_eq, List.mem_append]
    exact Or.imp_right (List.mem_cons_of_mem j)

/-- A step of the delivery is a sequence of moves of every ticket. -/
theorem step_ticket {l : Label} (hstopping : s.stopper ≠ .outside → s.net.stopping = true)
    (h : s.step event l = some s') :
    Ticket.Moves (event k).targetConnectionId (s.ticket k) (s'.ticket k) := by
  cases l with
  | net l =>
    obtain ⟨-, h⟩ := Option.ite_none_right_eq_some.mp h
    obtain ⟨net, -, rfl⟩ := Option.map_eq_some_iff.mp h
    exact moves_follow l net
  | eventFd opened =>
    cases h
    exact moves_of_eq rfl rfl rfl id
  | call j =>
    obtain ⟨hpos, ⟨⟩⟩ := Option.ite_none_right_eq_some.mp h
    refine moves_goTo ?_
    rw [hpos]
    split
    · exact .reject
    · exact .prepare
  | enter j =>
    obtain ⟨hpos, ⟨⟩⟩ := Option.ite_none_right_eq_some.mp h
    refine moves_goTo ?_
    rw [hpos]
    split
    · exact .giveUp
    · exact .enter
  | enqueue j =>
    obtain ⟨hpos, ⟨⟩⟩ := Option.ite_none_right_eq_some.mp h
    exact moves_enqueue _ hpos
  | notify j written =>
    obtain ⟨hpos, ⟨⟩⟩ := Option.ite_none_right_eq_some.mp h
    refine moves_goTo ?_
    rw [hpos]
    split
    · exact .notify
    · exact .notifyFails
  | withdraw j =>
    obtain ⟨hpos, ⟨⟩⟩ := Option.ite_none_right_eq_some.mp h
    exact moves_abandonOr (.inl hpos) fun hstate => hpos ▸ .tooLate hstate
  | timeout j =>
    obtain ⟨hpos, ⟨⟩⟩ := Option.ite_none_right_eq_some.mp h
    exact moves_goTo (hpos.1 ▸ .timeout)
  | expire j =>
    obtain ⟨hpos, ⟨⟩⟩ := Option.ite_none_right_eq_some.mp h
    exact moves_abandonOr (.inr hpos) fun hstate => hpos ▸ .block hstate
  | get j =>
    obtain ⟨hpos, h⟩ := Option.ite_none_right_eq_some.mp h
    obtain ⟨outcome, hcompletion, rfl⟩ := Option.map_eq_some_iff.mp h
    exact moves_goTo (.get outcome hpos hcompletion)
  | claim =>
    obtain ⟨hguard, h⟩ := Option.ite_none_right_eq_some.mp h
    exact moves_claimStep h hguard.1
  | deliver env =>
    simp only [step] at h
    split at h
    · rename_i j hhand
      exact moves_deliverStep h hhand
    · cases h
  | fulfil =>
    simp only [step] at h
    split at h
    · rename_i j outcome hhand
      cases h
      have hof : s.hand.of k = if j = k then some (some outcome) else none := by rw [hhand]; rfl
      refine moves_of_task rfl rfl rfl (fun hk => ?_) rfl (fun _ => rfl) id fun hk => ?_
      · rw [hof, if_neg (Ne.symm hk)]
        rfl
      · subst hk
        exact .fulfil (t := s.ticket k) outcome (hof.trans (if_pos rfl))
    · cases h
  | stop =>
    simp only [step] at h
    split at h
    · cases h
      exact .refl
    · rename_i hrunning
      cases h
      have houtside : s.stopper = .outside := by
        by_contra hno
        exact hrunning (hstopping hno)
      refine moves_of_eq rfl rfl (by rw [houtside]; rfl) ?_
      simp only [listed, houtside, Stopper.tasks]
      exact id
  | swap =>
    obtain ⟨hstopper, ⟨⟩⟩ := Option.ite_none_right_eq_some.mp h
    refine moves_of_eq rfl rfl (by rw [hstopper]; rfl) ?_
    simp only [listed, hstopper, Stopper.tasks, decide_eq_true_eq, List.mem_append]
    tauto
  | sweep =>
    simp only [step] at h
    split at h
    · rename_i j tasks hstopper
      cases h
      exact moves_sweepStep hstopper
    · cases h
  | refuse =>
    simp only [step] at h
    split at h
    · rename_i j tasks hstopper
      cases h
      have hrefuses : s.stopper.refuses k = decide (j = k) := by rw [hstopper]; rfl
      refine moves_of_task rfl rfl rfl (fun _ => rfl) rfl (fun hk => ?_) ?_ fun hk => ?_
      · rw [hrefuses, decide_eq_false (Ne.symm hk)]
        rfl
      · simp only [listed, hstopper, Stopper.tasks]
        exact id
      · subst hk
        exact .refuse (t := s.ticket k) (hrefuses.trans (decide_eq_true rfl))
    · cases h

/-! ## The network layer -/

/-- The tasks here are the remote pushes there. -/
structure Aligned (event : Nat → RemotePush) (s : Delivery) : Prop where
  reachable : Server.lts.Reachable s.net
  work : s.net.remoteWork = (s.remotePushTasks.map event, s.taken.map event)
  hand : ∀ k, s.hand = .claimed k → s.net.io.atRemote = true ∧ ∃ rest, s.taken = k :: rest
  stopping : s.stopper ≠ .outside → s.net.stopping = true

/-- Steps of the callers, which leave the server and the threads alone. -/
theorem Aligned.of_eq (h : s.Aligned event) (hnet : s'.net = s.net)
    (hqueue : s'.remotePushTasks = s.remotePushTasks) (htaken : s'.taken = s.taken)
    (hhand : s'.hand = s.hand) (hstopper : s'.stopper = s.stopper) : s'.Aligned event := by
  refine ⟨?_, ?_, ?_, ?_⟩
  · rw [hnet]
    exact h.reachable
  · rw [hnet, hqueue, htaken]
    exact h.work
  · rw [hnet, htaken, hhand]
    exact h.hand
  · rw [hnet, hstopper]
    exact h.stopping

theorem Aligned.abandonOr (h : s.Aligned event) (pos : CallerPos) :
    (s.abandonOr j pos).Aligned event := by
  unfold Delivery.abandonOr
  split <;> exact h.of_eq rfl rfl rfl rfl rfl

/-- While the I/O thread is with a remote push only the other threads step. -/
theorem offLoop_of_admits {l : Net.Label} (hadmits : s.admits l = true) (hbusy : s.hand ≠ .free) :
    l.offLoop = true := by
  cases l with
  | take | worker => rfl
  | remotePush | stop => cases hadmits
  | _ => simp [admits, hbusy, Net.Label.offLoop] at hadmits

theorem Aligned.ioStep (h : s.Aligned event) (hadmits : s.admits (.io env) = true)
    (hnet : s.net.ioStep env = some net) : (s.follow (.io env) net).Aligned event := by
  obtain ⟨hfree, hremote⟩ : s.hand = .free ∧ s.net.io.atRemote = false := by
    simpa [admits] using hadmits
  have hreachable : Server.lts.Reachable net :=
    Server.reachable_of_step (l := .io env) h.reachable hnet
  have hstopping : s.stopper ≠ .outside → net.stopping = true := fun hno =>
    Server.stopping_step (l := .io env) hnet (h.stopping hno)
  have hhand : ∀ k, s.hand ≠ .claimed k := fun k hk => by
    rw [hfree] at hk
    cases hk
  obtain ⟨hqueue, htaken⟩ := Prod.mk.inj h.work
  have hwork := Server.remoteWork_ioStep hnet
  simp only [follow]
  split
  · rename_i htakes
    rw [if_pos htakes, hqueue, htaken] at hwork
    exact ⟨hreachable, hwork.trans (congrArg _ List.map_append.symm),
      fun k hk => absurd hk (hhand k), hstopping⟩
  · rename_i htakes
    rw [if_neg htakes, hremote, hqueue, htaken] at hwork
    exact ⟨hreachable, hwork, fun k hk => absurd hk (hhand k), hstopping⟩

theorem Aligned.netStep (h : s.Aligned event) {l : Net.Label} (hadmits : s.admits l = true)
    (hnet : s.net.step l = some net) : (s.follow l net).Aligned event := by
  by_cases hio : ∃ env, l = .io env
  · obtain ⟨env, rfl⟩ := hio
    exact h.ioStep hadmits hnet
  · have hfollow : s.follow l net = { s with net := net } := by
      cases l with
      | io env => exact absurd ⟨env, rfl⟩ hio
      | _ => rfl
    have hwork : net.remoteWork = s.net.remoteWork := by
      refine Server.remoteWork_step hnet (fun env hl => hio ⟨env, hl⟩) (fun e hl => ?_) fun hl => ?_
      all_goals
        rw [hl] at hadmits
        cases hadmits
    rw [hfollow]
    refine ⟨Server.reachable_of_step h.reachable hnet, hwork.trans h.work, fun k hk => ?_,
      fun hno => Server.stopping_step hnet (h.stopping hno)⟩
    have hkept := Server.step_offLoop hnet
      (offLoop_of_admits hadmits (by rw [show s.hand = _ from hk]; nofun))
    obtain ⟨hremote, htaken⟩ := h.hand k hk
    exact ⟨(congrArg Io.atRemote hkept.1).trans hremote, htaken⟩

/-- The I/O thread deals with the first of the tasks it has taken. -/
theorem Aligned.dealt (h : s.Aligned event) {k : Nat} {rest : List Nat}
    (hremote : s.net.io.atRemote = true) (htaken : s.taken = k :: rest)
    (hnet : s.net.step (.io env) = some net) :
    Server.lts.Reachable net ∧ net.remoteWork = (s.remotePushTasks.map event, rest.map event) ∧
      (s.stopper ≠ .outside → net.stopping = true) := by
  obtain ⟨e, ops, hio⟩ := Io.of_atRemote hremote
  obtain ⟨hqueue, htasks⟩ := Prod.mk.inj h.work
  refine ⟨Server.reachable_of_step h.reachable hnet, ?_, fun hno =>
    Server.stopping_step hnet (h.stopping hno)⟩
  have hwork := Server.remoteWork_ioStep hnet
  have htakes : s.net.io.takesRemote = false := by rw [hio]; rfl
  rw [htakes, hremote, hqueue, htasks, htaken] at hwork
  exact hwork

theorem Aligned.claimStep (h : s.Aligned event) (hfree : s.hand = .free)
    (hremote : s.net.io.atRemote = true) (hstep : s.claimStep = some s') : s'.Aligned event := by
  unfold Delivery.claimStep at hstep
  split at hstep
  · cases hstep
  · rename_i k rest htaken
    split at hstep
    · cases hstep
      refine ⟨h.reachable, h.work, fun j hj => ⟨hremote, rest, ?_⟩, h.stopping⟩
      cases hj
      exact htaken
    · obtain ⟨net, hnet, rfl⟩ := Option.map_eq_some_iff.mp hstep
      obtain ⟨hreachable, hwork, hstopping⟩ := h.dealt hremote htaken hnet
      refine ⟨hreachable, hwork, fun j hj => ?_, hstopping⟩
      rw [show s.hand = _ from hj] at hfree
      cases hfree

theorem Aligned.deliverStep (h : s.Aligned event) (hhand : s.hand = .claimed j)
    (hstep : s.deliverStep event j env = some s') : s'.Aligned event := by
  obtain ⟨hremote, rest, htaken⟩ := h.hand j hhand
  obtain ⟨net, hnet, rfl⟩ := Option.map_eq_some_iff.mp hstep
  obtain ⟨hreachable, hwork, hstopping⟩ := h.dealt hremote htaken hnet
  refine ⟨hreachable, ?_, nofun, hstopping⟩
  show net.remoteWork = (s.remotePushTasks.map event, s.taken.tail.map event)
  rw [htaken]
  exact hwork

theorem inductive_aligned (event : Nat → RemotePush) :
    (delivery event).Inductive (fun _ _ => True) fun s => s.Aligned event where
  init := by
    rintro s rfl
    exact ⟨.init rfl, rfl, nofun, fun hno => absurd rfl hno⟩
  step s l s' h _ hstep := by
    cases l with
    | net l =>
      obtain ⟨hadmits, hstep⟩ := Option.ite_none_right_eq_some.mp hstep
      obtain ⟨net, hnet, rfl⟩ := Option.map_eq_some_iff.mp hstep
      exact h.netStep hadmits hnet
    | eventFd opened =>
      cases hstep
      exact h.of_eq rfl rfl rfl rfl rfl
    | call j | enter j | notify j written | timeout j =>
      obtain ⟨-, ⟨⟩⟩ := Option.ite_none_right_eq_some.mp hstep
      exact h.of_eq rfl rfl rfl rfl rfl
    | enqueue j =>
      obtain ⟨-, ⟨⟩⟩ := Option.ite_none_right_eq_some.mp hstep
      obtain ⟨hqueue, htaken⟩ := Prod.mk.inj h.work
      refine ⟨Server.reachable_of_step (l := .remotePush (event j)) h.reachable rfl, ?_, h.hand,
        h.stopping⟩
      show (s.net.remotePushTasks ++ [event j], s.net.io.remotes) = _
      rw [hqueue, htaken, List.map_append]
      rfl
    | withdraw j | expire j =>
      obtain ⟨-, ⟨⟩⟩ := Option.ite_none_right_eq_some.mp hstep
      exact h.abandonOr _
    | get j =>
      obtain ⟨-, hstep⟩ := Option.ite_none_right_eq_some.mp hstep
      obtain ⟨outcome, -, rfl⟩ := Option.map_eq_some_iff.mp hstep
      exact h.of_eq rfl rfl rfl rfl rfl
    | claim =>
      obtain ⟨hguard, hstep⟩ := Option.ite_none_right_eq_some.mp hstep
      exact h.claimStep hguard.1 hguard.2 hstep
    | deliver env =>
      simp only [delivery, step] at hstep
      split at hstep
      · rename_i j hhand
        exact h.deliverStep hhand hstep
      · cases hstep
    | fulfil =>
      simp only [delivery, step] at hstep
      split at hstep
      · cases hstep
        exact ⟨h.reachable, h.work, nofun, h.stopping⟩
      · cases hstep
    | stop =>
      simp only [delivery, step] at hstep
      split at hstep
      · cases hstep
        exact h
      · cases hstep
        exact ⟨Server.reachable_stopping h.reachable, h.work, h.hand, fun _ => rfl⟩
    | swap =>
      obtain ⟨hstopper, ⟨⟩⟩ := Option.ite_none_right_eq_some.mp hstep
      have hstopping := h.stopping (by rw [hstopper]; nofun)
      have hstopped : Server.lts.Reachable { s.net with remotePushTasks := [] } := by
        refine Server.reachable_of_step (l := .stop) h.reachable ?_
        show some { s.net with stopping := true, remotePushTasks := [] } = _
        rw [← hstopping]
      refine ⟨hstopped, ?_, h.hand, fun _ => hstopping⟩
      obtain ⟨-, htaken⟩ := Prod.mk.inj h.work
      exact congrArg (Prod.mk []) htaken
    | sweep =>
      simp only [delivery, step] at hstep
      split at hstep
      · rename_i j tasks hstopper
        cases hstep
        have hstopping := h.stopping (by rw [hstopper]; nofun)
        unfold sweepStep
        split <;> exact ⟨h.reachable, h.work, h.hand, fun _ => hstopping⟩
      · cases hstep
    | refuse =>
      simp only [delivery, step] at hstep
      split at hstep
      · rename_i j tasks hstopper
        cases hstep
        have hstopping := h.stopping (by rw [hstopper]; nofun)
        exact ⟨h.reachable, h.work, h.hand, fun _ => hstopping⟩
      · cases hstep

end Delivery
end ChatServer.Remote
