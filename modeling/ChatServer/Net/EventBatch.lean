import ChatServer.Net.ConnectionTables

/-!
# A batch of `epoll_wait`

`acceptLoop` works through the events of a batch one after the other. A client
event carries a descriptor number only, and the connection is looked up when its
turn comes; meanwhile events before it in the batch close connections and accept
new ones, to which the kernel may give a number that just became free.

* `events_reach_owner` — a client event is applied to the connection that had
  the descriptor when the batch was returned, or to none, as long as no accepted
  socket gets the number of an event still ahead;
* `event_closes_successor` — a batch in which one does.
-/

namespace ChatServer.Net

/-- The bits of an event mask `acceptLoop` looks at. -/
structure EventMask where
  err : Bool := false
  readable : Bool := false
  writable : Bool := false
  /-- `EPOLLHUP` or `EPOLLRDHUP` -/
  hangUp : Bool := false
  deriving DecidableEq

/-- What an event of the batch is for. -/
inductive EventSource
  | worker
  | timer
  | listen
  | client (fd : Fd) (mask : EventMask)
  deriving DecidableEq

/-- What the I/O thread does to a connection on behalf of a client event. -/
inductive Touch
  | close
  | read
  | write
  deriving DecidableEq

/-- How the calls for a client event turn out. -/
structure ClientEnv where
  /-- `onReadable` ends in one of its `closeClientFd` calls -/
  readCloses : Bool := false
  writeCloses : Bool := false
  hasPendingSend : Bool := false
  deriving DecidableEq

/-- Where the I/O thread is. -/
inductive LoopPos
  /-- in `epoll_wait` -/
  | waiting
  /-- at the head of the loop over the batch -/
  | next
  /-- inside `onWorkerResultReadable` or `onTimerReadable` -/
  | working
  /-- inside the loop around `accept` -/
  | accepting
  deriving DecidableEq

structure EventLoop where
  tables : ConnectionTables := {}
  pos : LoopPos := .waiting
  /-- the events ahead, each with the context that had its descriptor when the
  batch was returned -/
  batch : List (EventSource × Option ContextPtr) := []
  /-- what client events were applied to, with the owner of the event -/
  applied : List (Option ContextPtr × Touch × ContextPtr) := []

inductive LoopLabel
  | epollWait (events : List EventSource)
  | nextEvent (env : ClientEnv)
  /-- the work for another event closes a connection -/
  | closeClientFd (fd : Fd)
  | accept (fd : Fd)
  /-- the work for the event is done -/
  | finish
  deriving DecidableEq

namespace ConnectionTables

variable (t : ConnectionTables)

/-- `closeClientFd`, with what it touches. -/
def closeTouching (fd : Fd) : ConnectionTables × List (Touch × ContextPtr) :=
  (t.closeClientFd fd, (t.fdToContext fd).toList.map fun p => (.close, p))

/-- `onReadable` and `onWritable`: look the context up, use it, and perhaps close
it. -/
def useTouching (fd : Fd) (touch : Touch) (closes : Bool) :
    ConnectionTables × List (Touch × ContextPtr) :=
  match t.fdToContext fd with
  | none => (t, [])
  | some p =>
    if closes then ((t.closeTouching fd).1, (touch, p) :: (t.closeTouching fd).2)
    else (t, [(touch, p)])

/-- One step of the handling of a client event, if its bit is set. -/
def when (r : ConnectionTables × List (Touch × ContextPtr)) (bit : Bool)
    (f : ConnectionTables → ConnectionTables × List (Touch × ContextPtr)) :
    ConnectionTables × List (Touch × ContextPtr) :=
  if bit then ((f r.1).1, r.2 ++ (f r.1).2) else r

/-- The branch of `acceptLoop` for connected sockets. -/
def clientEvent (fd : Fd) (mask : EventMask) (env : ClientEnv) :
    ConnectionTables × List (Touch × ContextPtr) :=
  if mask.err then t.closeTouching fd
  else
    let r := when (t, []) mask.readable fun t => t.useTouching fd .read env.readCloses
    let r := when r mask.writable fun t => t.useTouching fd .write env.writeCloses
    when r (mask.hangUp && !env.hasPendingSend) fun t => t.closeTouching fd

end ConnectionTables

namespace EventLoop

variable (s : EventLoop)

/-- The event with the context that has its descriptor now. -/
def owned (e : EventSource) : EventSource × Option ContextPtr :=
  match e with
  | .client fd _ => (e, s.tables.fdToContext fd)
  | _ => (e, none)

/-- The kernel reports client events for connections only: a descriptor is added
to the epoll set when it is registered and removed before it is closed. -/
def Reported (e : EventSource) : Prop :=
  match e with
  | .client fd _ => (s.tables.fdToContext fd).isSome
  | _ => True

instance (e : EventSource) : Decidable (s.Reported e) :=
  match e with
  | .client _ _ => inferInstanceAs (Decidable (_ = _))
  | .worker | .timer | .listen => isTrue trivial

/-- Turn to the next event. -/
def nextEvent (env : ClientEnv) : EventLoop :=
  match s.batch with
  | [] => { s with pos := .waiting }
  | (.worker, _) :: rest => { s with pos := .working, batch := rest }
  | (.timer, _) :: rest => { s with pos := .working, batch := rest }
  | (.listen, _) :: rest => { s with pos := .accepting, batch := rest }
  | (.client fd mask, owner) :: rest =>
    let r := s.tables.clientEvent fd mask env
    { s with
      tables := r.1
      batch := rest
      applied := s.applied ++ r.2.map fun a => (owner, a) }

def step : LoopLabel → Option EventLoop
  | .epollWait events =>
    if s.pos = .waiting ∧ ∀ e ∈ events, s.Reported e then
      some { s with pos := .next, batch := events.map s.owned }
    else none
  | .nextEvent env => if s.pos = .next then some (s.nextEvent env) else none
  | .closeClientFd fd =>
    if s.pos = .working then some { s with tables := s.tables.closeClientFd fd } else none
  | .accept fd =>
    if s.pos = .accepting ∧ s.tables.Fresh fd then
      some { s with tables := s.tables.registerConnection fd }
    else none
  | .finish => if s.pos = .working ∨ s.pos = .accepting then some { s with pos := .next } else none

def lts : Base.Lts EventLoop LoopLabel where
  Init s := s = {}
  step := step

/-- The descriptor of a client event. -/
def clientFd (e : EventSource × Option ContextPtr) : Option Fd :=
  match e.1 with
  | .client fd _ => some fd
  | _ => none

/-- No accepted socket gets the number of a client event that is still ahead. -/
def NoReuse : LoopLabel → Prop
  | .accept fd => ∀ e ∈ s.batch, clientFd e ≠ some fd
  | _ => True

instance (l : LoopLabel) : Decidable (s.NoReuse l) :=
  match l with
  | .accept _ => inferInstanceAs (Decidable (∀ e ∈ _, _))
  | .epollWait _ | .nextEvent _ | .closeClientFd _ | .finish => isTrue trivial

/-! ## What a client event touches -/

/-- The entry of a descriptor is still there, or it is gone. -/
def Kept (t t' : ConnectionTables) : Prop :=
  ∀ fd, t'.fdToContext fd = t.fdToContext fd ∨ t'.fdToContext fd = none

theorem Kept.refl (t : ConnectionTables) : Kept t t := fun _ => .inl rfl

theorem Kept.trans {t t' t'' : ConnectionTables} (h : Kept t t') (h' : Kept t' t'') :
    Kept t t'' := by
  intro fd
  rcases h' fd with h' | h'
  · rw [h']
    exact h fd
  · exact .inr h'

theorem kept_closeClientFd (t : ConnectionTables) (fd : Fd) : Kept t (t.closeClientFd fd) := by
  unfold ConnectionTables.closeClientFd
  split
  · exact Kept.refl t
  · rename_i p _
    split
    · exact Kept.refl t
    · rename_i t' hunregister
      obtain ⟨-, ⟨⟩⟩ := Option.ite_none_right_eq_some.mp hunregister
      intro f
      show Function.update t.fdToContext (t.objects p).fd none f = _ ∨
        Function.update t.fdToContext (t.objects p).fd none f = _
      by_cases hf : f = (t.objects p).fd
      · subst hf
        exact .inr (Function.update_self ..)
      · exact .inl (Function.update_of_ne hf ..)

/-- What a part of the handling may do: entries go, and only the context that
has the descriptor is touched. -/
structure Handles (fd : Fd) (t : ConnectionTables)
    (r : ConnectionTables × List (Touch × ContextPtr)) : Prop where
  kept : Kept t r.1
  touches : ∀ a ∈ r.2, t.fdToContext fd = some a.2

theorem handles_closeTouching (t : ConnectionTables) (fd : Fd) :
    Handles fd t (t.closeTouching fd) where
  kept := kept_closeClientFd t fd
  touches a ha := by
    obtain ⟨p, hp, rfl⟩ := List.mem_map.mp ha
    exact Option.mem_toList.mp hp

theorem handles_useTouching (t : ConnectionTables) (fd : Fd) (touch : Touch) (closes : Bool) :
    Handles fd t (t.useTouching fd touch closes) := by
  unfold ConnectionTables.useTouching
  split
  · exact ⟨Kept.refl t, fun _ ha => nomatch ha⟩
  · rename_i p hp
    split
    · refine ⟨(handles_closeTouching t fd).kept, fun a ha => ?_⟩
      rcases List.mem_cons.mp ha with rfl | ha
      · exact hp
      · exact (handles_closeTouching t fd).touches a ha
    · refine ⟨Kept.refl t, fun a ha => ?_⟩
      rw [List.mem_singleton.mp ha]
      exact hp

theorem Handles.when {fd : Fd} {t : ConnectionTables}
    {r : ConnectionTables × List (Touch × ContextPtr)} (h : Handles fd t r) (bit : Bool)
    {f : ConnectionTables → ConnectionTables × List (Touch × ContextPtr)}
    (hf : ∀ t, Handles fd t (f t)) : Handles fd t (ConnectionTables.when r bit f) := by
  unfold ConnectionTables.when
  split
  · refine ⟨h.kept.trans (hf r.1).kept, fun a ha => ?_⟩
    rcases List.mem_append.mp ha with ha | ha
    · exact h.touches a ha
    · -- the entry was looked up again, and it is there
      have hnow := (hf r.1).touches a ha
      rcases h.kept fd with hsame | hgone
      · rw [← hsame, hnow]
      · rw [hgone] at hnow
        cases hnow
  · exact h

theorem handles_clientEvent (t : ConnectionTables) (fd : Fd) (mask : EventMask)
    (env : ClientEnv) : Handles fd t (t.clientEvent fd mask env) := by
  unfold ConnectionTables.clientEvent
  split
  · exact handles_closeTouching t fd
  · have hnone : Handles fd t (t, []) := ⟨Kept.refl t, fun _ ha => nomatch ha⟩
    exact ((hnone.when _ fun t => handles_useTouching t fd _ _).when _ fun t =>
      handles_useTouching t fd _ _).when _ fun t => handles_closeTouching t fd

/-! ## Whole batches -/

/-- The events ahead still mean their owners, or nobody. -/
structure Inv (s : EventLoop) : Prop where
  owners : ∀ e ∈ s.batch, ∀ fd, clientFd e = some fd →
    s.tables.fdToContext fd = e.2 ∨ s.tables.fdToContext fd = none
  applied : ∀ a ∈ s.applied, a.1 = some a.2.2

variable {s}

/-- Entries that go do no harm to the events ahead. -/
theorem Inv.owners_kept (h : Inv s) {t : ConnectionTables} (hkept : Kept s.tables t)
    {rest : List (EventSource × Option ContextPtr)} (hrest : ∀ e ∈ rest, e ∈ s.batch) :
    ∀ e ∈ rest, ∀ fd, clientFd e = some fd →
      t.fdToContext fd = e.2 ∨ t.fdToContext fd = none := by
  intro e he fd hfd
  rcases hkept fd with hsame | hgone
  · rw [hsame]
    exact h.owners e (hrest e he) fd hfd
  · exact .inr hgone

theorem Inv.nextEvent (h : Inv s) (env : ClientEnv) : Inv (s.nextEvent env) := by
  unfold EventLoop.nextEvent
  split
  case h_1 => exact ⟨h.owners, h.applied⟩
  case h_5 fd mask owner rest hbatch =>
    have hhandles := handles_clientEvent s.tables fd mask env
    have hself := h.owners (.client fd mask, owner) (by simp [hbatch]) fd rfl
    refine ⟨h.owners_kept hhandles.kept fun e he => by simp [hbatch, he], fun a ha => ?_⟩
    rcases List.mem_append.mp ha with hold | hnew
    · exact h.applied a hold
    · obtain ⟨b, hb, rfl⟩ := List.mem_map.mp hnew
      have htouched := hhandles.touches b hb
      rcases hself with howner | hgone
      · exact howner.symm.trans htouched
      · rw [hgone] at htouched
        cases htouched
  all_goals
    rename_i hbatch
    exact ⟨h.owners_kept (Kept.refl _) fun e he => by simp [hbatch, he], h.applied⟩

theorem inductive_inv : lts.Inductive NoReuse Inv where
  init s hs := by
    subst hs
    exact ⟨fun _ he => (nomatch he), fun _ ha => nomatch ha⟩
  step s l s' h hok hstep := by
    cases l with
    | epollWait events =>
      obtain ⟨-, ⟨⟩⟩ := Option.ite_none_right_eq_some.mp hstep
      refine ⟨fun e he fd hfd => .inl ?_, h.applied⟩
      obtain ⟨source, -, rfl⟩ := List.mem_map.mp he
      cases source with
      | client fd' mask =>
        obtain rfl := Option.some.inj hfd
        rfl
      | worker | timer | listen => cases hfd
    | nextEvent env =>
      obtain ⟨-, ⟨⟩⟩ := Option.ite_none_right_eq_some.mp hstep
      exact h.nextEvent env
    | closeClientFd fd =>
      obtain ⟨-, ⟨⟩⟩ := Option.ite_none_right_eq_some.mp hstep
      exact ⟨h.owners_kept (kept_closeClientFd s.tables fd) fun _ he => he, h.applied⟩
    | accept fd =>
      obtain ⟨-, ⟨⟩⟩ := Option.ite_none_right_eq_some.mp hstep
      refine ⟨fun e he f hf => ?_, h.applied⟩
      have hne : f ≠ fd := fun heq => hok e he (heq ▸ hf)
      rw [show (s.tables.registerConnection fd).fdToContext f = s.tables.fdToContext f from
        Function.update_of_ne hne ..]
      exact h.owners e he f hf
    | finish =>
      obtain ⟨-, ⟨⟩⟩ := Option.ite_none_right_eq_some.mp hstep
      exact ⟨h.owners, h.applied⟩

/-- Whatever a client event closes, reads or writes is the connection that had
its descriptor when the batch was returned, if no accepted socket gets the
number of an event still ahead. -/
theorem events_reach_owner (hs : lts.Reach NoReuse s) :
    ∀ a ∈ s.applied, a.1 = some a.2.2 :=
  (inductive_inv.invariant hs).applied

/-- Two connections; the first one's descriptor is closed and its event, which
comes last, finds nothing. -/
theorem events_reach_owner_ignored :
    ∃ s, lts.Reach NoReuse s ∧ s.applied = [(some 1, .read, 1)] ∧
      ∀ a ∈ s.applied, a.1 = some a.2.2 := by
  have hok : lts.RunOk NoReuse {}
      [.epollWait [.listen], .nextEvent {}, .accept 5, .accept 6, .finish, .nextEvent {},
        .epollWait [.worker, .client 6 { readable := true }, .client 5 { hangUp := true }],
        .nextEvent {}, .closeClientFd 5, .finish, .nextEvent {}, .nextEvent {}] := by
    decide +kernel
  obtain ⟨s, hs, h⟩ := Base.Lts.exists_reach_of_run (M := lts) (s := {})
    (fun s => decide (s.applied = [(some 1, .read, 1)])) _ rfl hok (by decide +kernel)
  exact ⟨s, hs, of_decide_eq_true h, events_reach_owner hs⟩

/-- The worker event closes connection 0, the listen event accepts connection 1
on the same descriptor, and the hang-up of connection 0 closes connection 1. -/
theorem event_closes_successor :
    ∃ s, lts.Reachable s ∧ s.applied = [(some 0, .close, 1)] ∧
      s.tables.connections 2 = none := by
  obtain ⟨s, hs, h⟩ := Base.Lts.exists_reach_of_run (M := lts) (s := {})
    (fun s => decide (s.applied = [(some 0, .close, 1)] ∧ s.tables.connections 2 = none))
    [.epollWait [.listen], .nextEvent {}, .accept 5, .finish, .nextEvent {},
      .epollWait [.worker, .listen, .client 5 { hangUp := true }],
      .nextEvent {}, .closeClientFd 5, .finish, .nextEvent {}, .accept 5, .finish,
      .nextEvent {}] rfl Base.Lts.runOk_true (by decide +kernel)
  obtain ⟨happlied, hclosed⟩ := of_decide_eq_true h
  exact ⟨s, hs, happlied, hclosed⟩

end EventLoop
end ChatServer.Net
