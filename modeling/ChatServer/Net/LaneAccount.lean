import Mathlib.Algebra.BigOperators.Group.Multiset.Basic
import Mathlib.Data.Multiset.Filter
import Mathlib.Tactic.Abel
import ChatServer.Net.LaneInv

/-!
# What a lane owes its peer

A request that is submitted has a call of `handle` due, a call that has begun its
return, and a result with a response this response. `Balanced` says that everything
due is with a token under way. It holds for every handler, also for results whose end
is deferred twice, where requests of one connection overlap.

* `Accounted` — the account of a registered connection of a running server;
* `Balanced.all_answered` — everything submitted has been answered when no token is left.
-/

namespace ChatServer.Net

open ChatServer.Codec ConnectionContext

/-! ## Reading a trace -/

/-- The request a call of `handle` begins with. -/
def Event.begun : Event → Option Bytes
  | .handleBegin request => some request
  | _ => none

/-- What a call of `handle` ended with. -/
def Event.ended : Event → Option (Option HandleResult)
  | .handleEnd outcome => some outcome
  | _ => none

/-- The response appended to the send buffer. -/
def Event.answer : Event → Option Bytes
  | .response payload => some payload
  | _ => none

/-- The response an outcome asks for; an empty one is not sent. -/
def replyOf : Option HandleResult → Option Bytes
  | none => none
  | some r => if r.response.isEmpty then none else some r.response

/-- Every request has been handled without an exception, and the responses asked
for are in the send buffer or beyond it. -/
structure Answered (requests : List Bytes) (trace : List Event) : Prop where
  handled : (trace.filterMap Event.begun).Perm requests
  returned : (trace.filterMap Event.ended).length = requests.length
  results : ∀ o ∈ trace.filterMap Event.ended, o.isSome = true
  appended : (trace.filterMap Event.answer).Perm ((trace.filterMap Event.ended).filterMap replyOf)

/-! ## The account -/

/-- What has to happen yet; an exception is never made up for. -/
inductive Due
  | call (request : Bytes)
  | return
  | reply (payload : Bytes)
  | excuse

namespace Due

def request? : Due → Option Bytes
  | .call request => some request
  | _ => none

def payload? : Due → Option Bytes
  | .reply payload => some payload
  | _ => none

def return? : Due → Option Unit
  | .return => some ()
  | _ => none

def excuse? : Due → Option Unit
  | .excuse => some ()
  | _ => none

end Due

/-- What is due after `handle`. -/
def duesOf : Option HandleResult → Multiset Due
  | none => {.excuse}
  | some r => if r.response.isEmpty then 0 else {.reply r.response}

/-- What is due after an event. -/
def Event.incurs : Event → Multiset Due
  | .handleBegin _ => {.return}
  | .handleEnd outcome => duesOf outcome
  | _ => 0

/-- What is no longer due. -/
def Event.settles : Event → Multiset Due
  | .handleBegin request => {.call request}
  | .handleEnd _ => {.return}
  | .response payload => {.reply payload}
  | _ => 0

def Token.dues (t : Token) : Multiset Due :=
  match t.stage with
  | .waiting request => {.call request}
  | .running => {.return}
  | .ran outcome => duesOf outcome
  | .finishing => 0

theorem HandleResult.sessionEvents_unread (r : HandleResult) :
    (r.sessionEvents.map Event.incurs).sum = 0 ∧ (r.sessionEvents.map Event.settles).sum = 0 := by
  unfold HandleResult.sessionEvents
  split <;> exact ⟨rfl, rfl⟩

/-- What has become due is settled or with a token. -/
def Balanced (submitted : List Bytes) (trace : List Event) (tokens : Multiset Token) : Prop :=
  (submitted : Multiset Bytes).map .call + (trace.map Event.incurs).sum =
    (trace.map Event.settles).sum + (tokens.map Token.dues).sum

namespace Balanced

variable {submitted : List Bytes} {trace : List Event} {tokens : Multiset Token} {t t' : Token}

theorem submit (h : Balanced submitted trace tokens) {p : Bytes} (ht : t.dues = {.call p}) :
    Balanced (submitted ++ [p]) trace (t ::ₘ tokens) := by
  unfold Balanced at h ⊢
  rw [← Multiset.coe_add, Multiset.map_add, add_right_comm, h, Multiset.map_cons, Multiset.sum_cons,
    ht, Multiset.coe_singleton, Multiset.map_singleton]
  abel

/-- Events settle what a token had due; the rest is due from the token that comes of it. -/
theorem advance (h : Balanced submitted trace (t ::ₘ tokens)) (es : List Event)
    (hes : (es.map Event.incurs).sum + t.dues = (es.map Event.settles).sum + t'.dues) :
    Balanced submitted (trace ++ es) (t' ::ₘ tokens) := by
  unfold Balanced at h ⊢
  rw [Multiset.map_cons, Multiset.sum_cons] at h ⊢
  rw [List.map_append, List.map_append, List.sum_append, List.sum_append, ← add_assoc, h]
  calc (trace.map Event.settles).sum + (t.dues + (tokens.map Token.dues).sum) +
        (es.map Event.incurs).sum
      = (trace.map Event.settles).sum + ((es.map Event.incurs).sum + t.dues) +
          (tokens.map Token.dues).sum := by abel
    _ = _ := by rw [hes]; abel

/-- A token that only ends its request has nothing due. -/
theorem cons_iff (ht : t.dues = 0) :
    Balanced submitted trace (t ::ₘ tokens) ↔ Balanced submitted trace tokens := by
  unfold Balanced
  rw [Multiset.map_cons, Multiset.sum_cons, ht, zero_add]

/-- Events that are neither calls nor responses do not count. -/
theorem record (h : Balanced submitted trace tokens) (es : List Event)
    (hes : (es.map Event.incurs).sum = 0 ∧ (es.map Event.settles).sum = 0) :
    Balanced submitted (trace ++ es) tokens := by
  unfold Balanced
  rw [List.map_append, List.map_append, List.sum_append, List.sum_append, hes.1, hes.2, add_zero,
    add_zero]
  exact h

/-- What the events of a trace have due, as far as `f` looks at it. -/
theorem filterMap_sum {β : Type} {dues : Event → Multiset Due} {f : Due → Option β}
    {g : Event → Option β} (h : ∀ e, (dues e).filterMap f = (g e).toList) :
    (trace.map dues).sum.filterMap f = trace.filterMap g := by
  induction trace with
  | nil => rfl
  | cons e trace ih =>
    rw [List.map_cons, List.sum_cons, Multiset.filterMap_add, h, ih, List.filterMap_cons]
    cases g e <;> rfl

/-- The account without tokens, as far as `f` looks at it. -/
theorem seen (h : Balanced submitted trace 0) {β : Type} (f : Due → Option β)
    (incurred settled : Event → Option β)
    (hincurred : ∀ e, e.incurs.filterMap f = (incurred e).toList)
    (hsettled : ∀ e, e.settles.filterMap f = (settled e).toList) :
    (submitted.filterMap (fun p => f (.call p)) ++ trace.filterMap incurred).Perm
      (trace.filterMap settled) := by
  have hsum := congrArg (Multiset.filterMap f) h
  rw [Multiset.map_zero, Multiset.sum_zero, add_zero, Multiset.filterMap_add,
    filterMap_sum hincurred, filterMap_sum hsettled, Multiset.filterMap_map] at hsum
  exact Multiset.coe_eq_coe.mp hsum

theorem filterMap_duesOf (o : Option HandleResult) :
    (duesOf o).filterMap Due.request? = 0 ∧ (duesOf o).filterMap Due.return? = 0 ∧
      (duesOf o).filterMap Due.payload? = (replyOf o).toList ∧
      (duesOf o).filterMap Due.excuse? = (if o = none then some () else none).toList := by
  rcases o with - | r
  · exact ⟨rfl, rfl, rfl, rfl⟩
  · rw [duesOf, replyOf]
    cases r.response.isEmpty <;> exact ⟨rfl, rfl, rfl, rfl⟩

/-- When no token is left, everything submitted has been answered. -/
theorem all_answered (h : Balanced submitted trace 0) : Answered submitted trace := by
  have hnone : ∀ {α β : Type} (l : List α), l.filterMap (fun _ => (none : Option β)) = [] :=
    fun l => List.filterMap_eq_nil_iff.mpr fun _ _ => rfl
  -- the account is read once for each kind of thing that can be due
  have hcalls := h.seen Due.request? (fun _ => none) Event.begun
    (fun e => by cases e <;> first | rfl | exact (filterMap_duesOf _).1)
    (fun e => by cases e <;> rfl)
  have hreturns := h.seen Due.return? (fun e => e.begun.map fun _ => ())
    (fun e => e.ended.map fun _ => ())
    (fun e => by cases e <;> first | rfl | exact (filterMap_duesOf _).2.1)
    (fun e => by cases e <;> rfl)
  have hreplies := h.seen Due.payload? (fun e => e.ended.bind replyOf) Event.answer
    (fun e => by cases e <;> first | rfl | exact (filterMap_duesOf _).2.2.1)
    (fun e => by cases e <;> rfl)
  have hexcuses := h.seen Due.excuse?
    (fun e => e.ended.bind fun o => if o = none then some () else none) (fun _ => none)
    (fun e => by cases e <;> first | rfl | exact (filterMap_duesOf _).2.2.2)
    (fun e => by cases e <;> rfl)
  simp only [Due.request?, Due.return?, Due.payload?, Due.excuse?, hnone, List.filterMap_some,
    List.append_nil, List.nil_append, ← List.map_filterMap, ← List.filterMap_filterMap,
    List.perm_nil] at hcalls hreturns hreplies hexcuses
  refine ⟨hcalls.symm, ?_, fun o ho => ?_, hreplies.symm⟩
  · rw [hcalls.length_eq, ← List.length_map, ← hreturns.length_eq, List.length_map]
  · have hno := List.filterMap_eq_nil_iff.mp hexcuses o ho
    cases o with
    | none => cases hno
    | some r => rfl

end Balanced

namespace Lane

variable {c : ConnId} {ok : HandleResult → Prop}

/-- The account of a registered connection, while the server is not stopping. -/
def Accounted (L : Lane) : Prop :=
  L.live = true → L.stopping = false → Balanced L.history.submitted L.history.trace L.held.1

theorem accounted_of_dead {L : Lane} (h : L.live = false) : L.Accounted :=
  fun hl => absurd hl (by simp [h])

theorem tokens_of_held {L : Lane} {t : Token} {x : Share} (h : L.held = Share.token t + x) :
    L.held.1 = t ::ₘ x.1 := by
  rw [h, Prod.fst_add, Share.token_tokens, Multiset.singleton_add]

theorem Accounted.move {L L' : Lane} (ha : L.Accounted) (h : Move c ok L L') : L'.Accounted := by
  -- most moves leave the requests, the trace and the tokens alone
  cases h with
  | submit p _ _ =>
    intro hl hst
    exact (ha hl hst).submit rfl
  | start k p x hx =>
    intro hl hst
    have hb := ha hl hst
    rw [tokens_of_held hx] at hb
    exact hb.advance [.handleBegin p] (add_comm _ _)
  | result k o x hx =>
    intro hl hst
    have hb := ha hl hst
    rw [tokens_of_held hx] at hb
    exact hb.advance [.handleEnd o] (by simp [Event.incurs, Event.settles, Token.dues, add_comm])
  | answerSilent k r x hx _ hempty =>
    intro hl hst
    have hb := ha hl hst
    rw [tokens_of_held hx] at hb
    show Balanced _ _ (⟨k, .finishing⟩ ::ₘ x.1)
    rw [← List.append_nil L.history.trace]
    exact hb.advance [] (by simp [Token.dues, duesOf, hempty])
  | answer k r x hx _ hne =>
    intro hl hst
    have hb := ha hl hst
    rw [tokens_of_held hx] at hb
    show Balanced _ _ (⟨k, .finishing⟩ ::ₘ x.1)
    refine hb.advance [.response r.response] ?_
    simp [Token.dues, duesOf, hne, Event.incurs, Event.settles]
  | session R u =>
    intro hl hst
    exact (ha hl hst).record R.result.sessionEvents R.result.sessionEvents_unread
  | push payload _ =>
    intro hl hst
    exact (ha hl hst).record [.push payload] ⟨rfl, rfl⟩
  | extraToken R =>
    intro hl hst
    exact (Balanced.cons_iff rfl).mpr (ha hl hst)
  | finish k x hx =>
    intro hl hst
    have hb := ha hl hst
    rw [tokens_of_held hx] at hb
    exact (Balanced.cons_iff rfl).mp hb
  | wake x hx =>
    intro hl hst
    have hb := ha hl hst
    rw [hx, Prod.fst_add, Share.wake_tokens, zero_add] at hb
    exact hb
  | release x hx =>
    intro hl hst
    have hb := ha hl hst
    rw [hx, Prod.fst_add, Share.fence_tokens, ← Share.wake_tokens, ← Prod.fst_add] at hb
    exact hb
  | raise =>
    intro hl hst
    show Balanced _ _ (Share.fence + L.held).1
    rw [Prod.fst_add, Share.fence_tokens, zero_add]
    exact ha hl hst
  | drop k o x hst =>
    intro _ hrun
    rw [hst] at hrun
    cases hrun
  | clear hst =>
    intro _ hrun
    exact ha ‹_› hrun
  | stop =>
    intro _ hrun
    cases hrun
  | close => exact accounted_of_dead rfl
  | lose x _ hdead => exact accounted_of_dead hdead
  | _ => exact ha

end Lane

end ChatServer.Net
