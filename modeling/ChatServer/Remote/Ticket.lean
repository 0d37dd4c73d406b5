import Mathlib.Logic.Relation
import ChatServer.Remote.Delivery

/-!
# The life of a remote push

A call of `deliverRemotePush` as the other threads see it: where it is, what it
shares with its task, and which thread has the task. The task is claimed by the
I/O thread, abandoned by the caller or abandoned by `stop()`:

    waiting → claimed → decided → fulfilled
            → withdrawn
            → swept → refused

`Stage` lists these stages and `Ticket.Sound` says where the call can be at each
of them. `Sound.moves` is all the rest needs.
-/

namespace ChatServer.Remote

open Net Service

/-- A task with the threads that have it: `io` is where the I/O thread is with
it, and `sweeping` says that `stop()` is about to refuse it. -/
@[ext]
structure Core where
  state : TaskState := .pending
  completion : Option RemoteDeliveryOutcome := none
  sets : Nat := 0
  appended : List Spot := []
  io : Option (Option RemoteDeliveryOutcome) := none
  sweeping : Bool := false

/-- What has been appended when the I/O thread has come to an outcome. -/
def Places (target : ConnId) (outcome : RemoteDeliveryOutcome) (spots : List Spot) : Prop :=
  match outcome with
  | .invalidTarget => spots = []
  | _ => ∃ i, spots = [⟨target, i⟩]

inductive Stage (target : ConnId) : Core → Prop
  | waiting : Stage target {}
  | claimed : Stage target { state := .claimed, io := some none }
  | decided (outcome : RemoteDeliveryOutcome) (spots : List Spot)
      (hplaces : Places target outcome spots) :
      Stage target { state := .claimed, appended := spots, io := some (some outcome) }
  | fulfilled (outcome : RemoteDeliveryOutcome) (spots : List Spot)
      (hplaces : Places target outcome spots) :
      Stage target
        { state := .claimed, completion := some outcome, sets := 1, appended := spots }
  | withdrawn : Stage target { state := .abandoned }
  | swept : Stage target { state := .abandoned, sweeping := true }
  | refused : Stage target { state := .abandoned, completion := some .retry, sets := 1 }

namespace Stage

variable {target : ConnId} {core : Core}

theorem of_pending (h : Stage target core) (hstate : core.state = .pending) : core = {} := by
  cases h with
  | waiting => rfl
  | _ => cases hstate

theorem of_claimed (h : Stage target core) (hio : core.io = some none) :
    core = { state := .claimed, io := some none } := by
  cases h with
  | claimed => rfl
  | _ => cases hio

theorem of_decided {outcome : RemoteDeliveryOutcome} (h : Stage target core)
    (hio : core.io = some (some outcome)) : ∃ spots, Places target outcome spots ∧
      core = { state := .claimed, appended := spots, io := some (some outcome) } := by
  cases h with
  | decided o spots hplaces =>
    obtain rfl : o = outcome := Option.some.inj (Option.some.inj hio)
    exact ⟨spots, hplaces, rfl⟩
  | _ => cases hio

theorem of_swept (h : Stage target core) (hsweeping : core.sweeping = true) :
    core = { state := .abandoned, sweeping := true } := by
  cases h with
  | swept => rfl
  | _ => cases hsweeping

theorem sets_le_one (h : Stage target core) : core.sets ≤ 1 := by
  cases h with
  | fulfilled | refused => exact le_rfl
  | _ => exact Nat.zero_le 1

end Stage

/-- Before the task is enqueued. -/
def CallerPos.early : CallerPos → Bool
  | .outside | .preparing | .enqueueing => true
  | _ => false

/-- The steps of a caller that leave the task alone. -/
inductive CallerPos.Goes (core : Core) : CallerPos → CallerPos → Prop
  | reject : Goes core .outside (.returned .invalidTarget)
  | prepare : Goes core .outside .preparing
  | giveUp : Goes core .preparing (.returned .retry)
  | enter : Goes core .preparing .enqueueing
  | notify : Goes core .notifying .waiting
  | notifyFails : Goes core .notifying .withdrawing
  | tooLate : core.state ≠ .pending → Goes core .withdrawing .waiting
  | timeout : Goes core .waiting .expiring
  | block : core.state ≠ .pending → Goes core .expiring .blocked
  | get (outcome : RemoteDeliveryOutcome) {pos : CallerPos} :
      pos = .waiting ∨ pos = .blocked → core.completion = some outcome →
      Goes core pos (.returned outcome)

/-- A call, its task, and whether the task is in a queue or in a thread's list. -/
@[ext]
structure Ticket where
  pos : CallerPos
  core : Core
  listed : Bool

namespace Ticket

/-- One change to a ticket. -/
inductive Move (target : ConnId) : Ticket → Ticket → Prop
  | drop {t} : Move target t { t with listed := false }
  | goes {t} (pos : CallerPos) : t.pos.Goes t.core pos → Move target t { t with pos := pos }
  | enqueue {t} : t.pos = .enqueueing → Move target t { t with pos := .notifying, listed := true }
  | abandon {t} : t.pos = .withdrawing ∨ t.pos = .expiring → t.core.state = .pending →
      Move target t
        { t with pos := .returned .retry, core := { t.core with state := .abandoned } }
  | claim {t} : t.listed = true → t.core.state = .pending →
      Move target t { t with core := { t.core with state := .claimed, io := some none } }
  | decide {t} (outcome : RemoteDeliveryOutcome) (spots : List Spot) : t.core.io = some none →
      Places target outcome spots →
      Move target t
        { t with core :=
          { t.core with appended := t.core.appended ++ spots, io := some (some outcome) } }
  | fulfil {t} (outcome : RemoteDeliveryOutcome) : t.core.io = some (some outcome) →
      Move target t
        { t with core :=
          { t.core with
            completion := t.core.completion.or (some outcome)
            sets := t.core.sets + 1
            io := none } }
  | sweep {t} : t.listed = true → t.core.state = .pending →
      Move target t { t with core := { t.core with state := .abandoned, sweeping := true } }
  | refuse {t} : t.core.sweeping = true →
      Move target t
        { t with core :=
          { t.core with
            completion := t.core.completion.or (some .retry)
            sets := t.core.sets + 1
            sweeping := false } }

abbrev Moves (target : ConnId) : Ticket → Ticket → Prop := Relation.ReflTransGen (Move target)

/-- The stage of the task and what the caller knows of it. -/
structure Sound (target : ConnId) (t : Ticket) : Prop where
  stage : Stage target t.core
  early : t.pos.early = true → t.core = {} ∧ t.listed = false
  blocked : t.pos = .blocked → t.core.state ≠ .pending
  /-- only the caller withdraws a task, and then it returns -/
  withdrawn : t.core = { state := .abandoned } → t.pos = .returned .retry
  returned : ∀ outcome, t.pos = .returned outcome →
    t.core.completion = some outcome ∨
    t.core = { state := .abandoned } ∧ outcome = .retry ∨
    t.core = {} ∧ t.listed = false ∧ outcome ≠ .delivered

variable {target : ConnId} {t t' : Ticket}

/-- The call of a task that a thread may still settle is not over. -/
theorem Sound.underway (h : t.Sound target) (hopen : t.core.completion = none)
    (hcore : t.core ≠ { state := .abandoned }) (hlisted : t.core = {} → t.listed = true) :
    t.pos.early = false ∧ ∀ outcome, t.pos ≠ .returned outcome := by
  have hqueued : ¬ (t.core = {} ∧ t.listed = false) := by
    rintro ⟨hinitial, hno⟩
    rw [hlisted hinitial] at hno
    cases hno
  refine ⟨Bool.eq_false_iff.mpr fun hearly => hqueued (h.early hearly), fun outcome hpos => ?_⟩
  rcases h.returned outcome hpos with hset | hwithdrawn | hrejected
  · rw [hopen] at hset
    cases hset
  · exact hcore hwithdrawn.1
  · exact hqueued ⟨hrejected.1, hrejected.2.1⟩

theorem Sound.of_underway {pos : CallerPos} {core : Core} {listed : Bool}
    (hpos : pos.early = false ∧ ∀ outcome, pos ≠ .returned outcome) (hstage : Stage target core)
    (hstate : core.state ≠ .pending) (hcore : core ≠ { state := .abandoned }) :
    Sound target ⟨pos, core, listed⟩ := by
  refine ⟨hstage, fun hearly => ?_, fun _ => hstate, fun hno => absurd hno hcore,
    fun outcome hreturned => absurd hreturned (hpos.2 outcome)⟩
  rw [show pos.early = false from hpos.1] at hearly
  cases hearly

/-- The caller goes on without touching the task. -/
theorem Sound.goes {pos : CallerPos} (h : t.Sound target) (hgoes : t.pos.Goes t.core pos) :
    Sound target { t with pos := pos } := by
  have hwithdrawn : t.core ≠ { state := .abandoned } := by
    intro hcore
    rw [h.withdrawn hcore] at hgoes
    cases hgoes with
    | get outcome hpos => rcases hpos with hpos | hpos <;> cases hpos
  obtain ⟨start, core, listed⟩ := t
  cases hgoes with
  | reject | giveUp =>
    obtain ⟨hcore, hlisted⟩ := h.early rfl
    refine ⟨h.stage, nofun, nofun, fun hno => absurd hno hwithdrawn, fun outcome hpos => ?_⟩
    cases hpos
    exact .inr (.inr ⟨hcore, hlisted, nofun⟩)
  | prepare | enter =>
    exact ⟨h.stage, fun _ => h.early rfl, nofun, fun hno => absurd hno hwithdrawn, nofun⟩
  | notify | notifyFails | tooLate | timeout =>
    exact ⟨h.stage, nofun, nofun, fun hno => absurd hno hwithdrawn, nofun⟩
  | block hstate => exact ⟨h.stage, nofun, fun _ => hstate, fun hno => absurd hno hwithdrawn, nofun⟩
  | get outcome hpos hcompletion =>
    refine ⟨h.stage, nofun, nofun, fun hno => absurd hno hwithdrawn, fun o ho => ?_⟩
    cases ho
    exact .inl hcompletion

theorem Sound.move (h : t.Sound target) (hm : Move target t t') : t'.Sound target := by
  obtain ⟨pos, core, listed⟩ := t
  have hstage := h.stage
  cases hm with
  | drop =>
    refine ⟨hstage, fun hpos => ⟨(h.early hpos).1, rfl⟩, h.blocked, h.withdrawn, fun o ho => ?_⟩
    exact (h.returned o ho).imp_right (.imp_right fun hcore => ⟨hcore.1, rfl, hcore.2.2⟩)
  | goes pos hgoes => exact h.goes hgoes
  | enqueue hpos =>
    subst hpos
    obtain ⟨rfl, -⟩ := h.early rfl
    exact ⟨hstage, nofun, nofun, nofun, nofun⟩
  | abandon hpos hstate =>
    obtain rfl := hstage.of_pending hstate
    exact ⟨.withdrawn, nofun, nofun, fun _ => rfl,
      fun o ho => .inr (.inl ⟨rfl, (CallerPos.returned.inj ho).symm⟩)⟩
  | claim hlisted hstate =>
    obtain rfl := hstage.of_pending hstate
    have hpos := h.underway rfl nofun fun _ => hlisted
    exact .of_underway hpos .claimed nofun nofun
  | decide outcome spots hio hplaces =>
    obtain rfl := hstage.of_claimed hio
    have hpos := h.underway rfl nofun nofun
    exact .of_underway hpos (.decided outcome spots hplaces) nofun nofun
  | fulfil outcome hio =>
    obtain ⟨spots, hplaces, rfl⟩ := hstage.of_decided hio
    have hpos := h.underway rfl nofun nofun
    exact .of_underway hpos (.fulfilled outcome spots hplaces) nofun nofun
  | sweep hlisted hstate =>
    obtain rfl := hstage.of_pending hstate
    have hpos := h.underway rfl nofun fun _ => hlisted
    exact .of_underway hpos .swept nofun nofun
  | refuse hsweeping =>
    obtain rfl := hstage.of_swept hsweeping
    have hpos := h.underway rfl nofun nofun
    exact .of_underway hpos .refused nofun nofun

theorem Sound.moves (h : t.Sound target) (hm : Moves target t t') : t'.Sound target := by
  induction hm with
  | refl => exact h
  | tail _ hmove ih => exact ih.move hmove

/-- A value that is set stays set. -/
theorem Moves.completion (hm : Moves target t t') (hset : t.core.completion.isSome = true) :
    t'.core.completion.isSome = true := by
  induction hm with
  | refl => exact hset
  | tail _ hmove ih =>
    cases hmove with
    | fulfil | refuse => simp
    | _ => exact ih

/-- A call that has returned stays so. -/
theorem Moves.returned {outcome : RemoteDeliveryOutcome} (hm : Moves target t t')
    (hpos : t.pos = .returned outcome) : t'.pos = .returned outcome := by
  induction hm with
  | refl => exact hpos
  | tail _ hmove ih =>
    cases hmove with
    | goes pos hgoes =>
      rw [ih] at hgoes
      cases hgoes with
      | get o hfrom => rcases hfrom with hfrom | hfrom <;> cases hfrom
    | enqueue hfrom =>
      rw [ih] at hfrom
      cases hfrom
    | abandon hfrom =>
      rw [ih] at hfrom
      rcases hfrom with hfrom | hfrom <;> cases hfrom
    | _ => exact ih

/-! ## What a sound ticket says -/

theorem Sound.of_retry (h : t.Sound target) (hpos : t.pos = .returned .retry) :
    t.core.completion = some .retry ∨ t.core.appended = [] := by
  rcases h.returned .retry hpos with hset | ⟨hcore, -⟩ | ⟨hcore, -⟩
  · exact .inl hset
  · exact .inr (hcore ▸ rfl)
  · exact .inr (hcore ▸ rfl)

theorem Sound.of_delivered (h : t.Sound target) (hpos : t.pos = .returned .delivered) :
    ∃ i, t.core.appended = [⟨target, i⟩] := by
  obtain ⟨pos, core, listed⟩ := t
  rcases h.returned .delivered hpos with hset | ⟨-, hno⟩ | ⟨-, -, hno⟩
  · cases h.stage with
    | fulfilled outcome spots hplaces =>
      obtain rfl := Option.some.inj hset
      exact hplaces
    | _ => cases hset
  · cases hno
  · exact absurd rfl hno

/-- A caller in `wait` has its value, or a thread is about to set it. -/
theorem Sound.of_blocked (h : t.Sound target) (hpos : t.pos = .blocked) :
    t.core.completion.isSome = true ∨ t.core.io = some none ∨
      (∃ outcome, t.core.io = some (some outcome)) ∨ t.core.sweeping = true := by
  obtain ⟨pos, core, listed⟩ := t
  have hstate := h.blocked hpos
  have hwithdrawn := h.withdrawn
  cases h.stage with
  | waiting => exact absurd rfl hstate
  | claimed => exact .inr (.inl rfl)
  | decided outcome => exact .inr (.inr (.inl ⟨outcome, rfl⟩))
  | fulfilled | refused => exact .inl rfl
  | withdrawn =>
    have hreturned := hwithdrawn rfl
    rw [hpos] at hreturned
    cases hreturned
  | swept => exact .inr (.inr (.inr rfl))

end Ticket
end ChatServer.Remote
