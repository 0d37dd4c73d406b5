import Mathlib.Data.List.Basic

/-!
# Programs over an interface

A program that calls operations of its environment one at a time, may throw,
and otherwise returns. `Op γ` are the operations that answer with a `γ`. The
environment is not part of the program: what an operation answers is decided
when the program runs, and other programs may run between two calls. Programs
are finite trees, so every run ends.

* `Returns admits Q` — whatever the operations answer within `admits`, the
  program returns and its result meets `Q`;
* `Returns.bind`, `Returns.call`, `Returns.ite`, `Returns.mono` — its rules;
* `Confined admits allowed Q` — and every call it makes on the way is one of
  `allowed`;
* `Ensures admits Q` — the same for the results it returns if it does not throw;
* `Yields admits o` — `o` is a possible outcome, `none` for an exception;
  `Ensures.of_yields` connects the two;
* `Respects alike` — the program goes on in the same way after answers that are
  alike; `Respects.yields` compares environments whose answers are.
-/

namespace Base

variable {Op : Type → Type 1} {ε α β γ : Type}

inductive Prog (Op : Type → Type 1) (ε α : Type) : Type 1
  | pure (a : α)
  | throw (e : ε)
  | call {γ : Type} (op : Op γ) (next : γ → Prog Op ε α)

namespace Prog

/-- Run `p`, then `f` on its result. -/
def bind : Prog Op ε α → (α → Prog Op ε β) → Prog Op ε β
  | .pure a, f => f a
  | .throw e, _ => .throw e
  | .call op next, f => .call op fun r => (next r).bind f

instance : Monad (Prog Op ε) where
  pure := Prog.pure
  bind := Prog.bind

/-- Call one operation. -/
def perform (op : Op γ) : Prog Op ε γ := .call op .pure

/-- A computation without calls. -/
def ofExcept : Except ε α → Prog Op ε α
  | .ok a => .pure a
  | .error e => .throw e

/-- Run `p` under a condition; the result is `a` otherwise. -/
def onlyIf (c : Bool) (a : α) (p : Prog Op ε α) : Prog Op ε α := if c then p else .pure a

/-- Every call replaced by a program over another interface. -/
def handle {Op' : Type → Type 1} (h : ∀ γ, Op γ → Prog Op' ε γ) : Prog Op ε α → Prog Op' ε α
  | .pure a => .pure a
  | .throw e => .throw e
  | .call op next => (h _ op).bind fun r => (next r).handle h

/-- A program that cannot throw, over another interface. -/
def lift {Op' : Type → Type 1} (f : ∀ {γ : Type}, Op γ → Op' γ) :
    Prog Op Empty α → Prog Op' ε α
  | .pure a => .pure a
  | .throw e => e.elim
  | .call op next => .call (f op) fun r => (next r).lift f

/-- The program returns, with a result in `Q`, as long as every answer is
admitted. -/
def Returns (admits : ∀ γ, Op γ → γ → Prop) (Q : α → Prop) : Prog Op ε α → Prop
  | .pure a => Q a
  | .throw _ => False
  | .call op next => ∀ r, admits _ op r → (next r).Returns admits Q

variable {admits : ∀ γ, Op γ → γ → Prop} {Q : α → Prop}

variable {a : α} {p q : Prog Op ε α} {Q' : β → Prop} {admits' : ∀ γ, Op γ → γ → Prop}
  {f : α → Prog Op ε β} {op : Op γ} {c : Prop} {x : Except ε α}

theorem Returns.pure (h : Q a) : (Pure.pure a : Prog Op ε α).Returns admits Q := h

theorem Returns.mono {Q' : α → Prop} (h : p.Returns admits Q) (hQ : ∀ a, Q a → Q' a) :
    p.Returns admits Q' := by
  induction p with
  | pure a => exact hQ a h
  | throw e => exact h
  | call op next ih => exact fun r hr => ih r (h r hr)

/-- Fewer answers to reckon with. -/
theorem Returns.restrict (h : p.Returns admits Q)
    (hsub : ∀ γ op r, admits' γ op r → admits γ op r) : p.Returns admits' Q := by
  induction p with
  | pure a => exact h
  | throw e => exact h
  | call op next ih => exact fun r hr => ih r (h r (hsub _ op r hr))

/-- The rule for sequencing. -/
theorem Returns.bind (hp : p.Returns admits Q) (hf : ∀ a, Q a → (f a).Returns admits Q') :
    (p >>= f).Returns admits Q' := by
  induction p with
  | pure a => exact hf a hp
  | throw e => exact hp.elim
  | call op next ih => exact fun r hr => ih r (hp r hr)

/-- A call followed by the rest of the program. -/
theorem Returns.call {f : γ → Prog Op ε β} (hf : ∀ r, admits γ op r → (f r).Returns admits Q') :
    (perform op >>= f).Returns admits Q' := fun r hr => hf r hr

theorem Returns.ite [Decidable c] (hp : c → p.Returns admits Q) (hq : ¬ c → q.Returns admits Q) :
    (if c then p else q).Returns admits Q := by
  split
  next h => exact hp h
  next h => exact hq h

/-- An early return. -/
theorem Returns.exit [Decidable c] (ha : Q a) (hq : ¬ c → q.Returns admits Q) :
    (if c then Pure.pure a else q).Returns admits Q :=
  .ite (fun _ => ha) hq

theorem Returns.onlyIf {c : Bool} (hp : p.Returns admits Q) (ha : Q a) :
    (p.onlyIf c a).Returns admits Q := .ite (fun _ => hp) fun _ => ha

theorem Returns.ofExcept (hx : x.isOk = true) (hQ : ∀ a, x = .ok a → Q a) :
    (Prog.ofExcept x : Prog Op ε α).Returns admits Q := by
  cases x with
  | error e => cases hx
  | ok a => exact hQ a rfl

/-! ## Which calls are made -/

/-- As long as every answer is admitted, the program makes allowed calls only and
returns, with a result in `Q`. -/
def Confined (admits : ∀ γ, Op γ → γ → Prop) (allowed : ∀ γ, Op γ → Prop) (Q : α → Prop) :
    Prog Op ε α → Prop
  | .pure a => Q a
  | .throw _ => False
  | .call op next => allowed _ op ∧ ∀ r, admits _ op r → (next r).Confined admits allowed Q

variable {allowed : ∀ γ, Op γ → Prop}

theorem Confined.pure (h : Q a) : (Pure.pure a : Prog Op ε α).Confined admits allowed Q := h

theorem Confined.bind (hp : p.Confined admits allowed Q)
    (hf : ∀ a, Q a → (f a).Confined admits allowed Q') : (p >>= f).Confined admits allowed Q' := by
  induction p with
  | pure a => exact hf a hp
  | throw e => exact hp.elim
  | call op next ih => exact ⟨hp.1, fun r hr => ih r (hp.2 r hr)⟩

theorem Confined.call {f : γ → Prog Op ε β} (hop : allowed γ op)
    (hf : ∀ r, admits γ op r → (f r).Confined admits allowed Q') :
    (perform op >>= f).Confined admits allowed Q' := ⟨hop, hf⟩

theorem Confined.ite [Decidable c] (hp : c → p.Confined admits allowed Q)
    (hq : ¬ c → q.Confined admits allowed Q) : (if c then p else q).Confined admits allowed Q := by
  split
  next h => exact hp h
  next h => exact hq h

theorem Confined.exit [Decidable c] (ha : Q a) (hq : ¬ c → q.Confined admits allowed Q) :
    (if c then Pure.pure a else q).Confined admits allowed Q := .ite (fun _ => ha) hq

theorem Confined.ofExcept (hx : x.isOk = true) (hQ : ∀ a, x = .ok a → Q a) :
    (Prog.ofExcept x : Prog Op ε α).Confined admits allowed Q := by
  cases x with
  | error e => cases hx
  | ok a => exact hQ a rfl

/-! ## Results of programs that may throw -/

/-- Whatever the operations answer within `admits`, a result meets `Q`. -/
def Ensures (admits : ∀ γ, Op γ → γ → Prop) (Q : α → Prop) : Prog Op ε α → Prop
  | .pure a => Q a
  | .throw _ => True
  | .call op next => ∀ r, admits _ op r → (next r).Ensures admits Q

/-- The outcomes the program can have when every answer is admitted. -/
def Yields (admits : ∀ γ, Op γ → γ → Prop) : Prog Op ε α → Option α → Prop
  | .pure a, outcome => outcome = some a
  | .throw _, outcome => outcome = none
  | .call op next, outcome => ∃ r, admits _ op r ∧ (next r).Yields admits outcome

/-- Run the program against fixed answers; `none` if it asks for another. -/
def run (env : ∀ γ, Op γ → Option γ) : Prog Op ε α → Option (Option α)
  | .pure a => some (some a)
  | .throw _ => some none
  | .call op next => (env _ op).bind fun r => (next r).run env

/-- An evaluated run shows a possible outcome. -/
theorem yields_of_run {env : ∀ γ, Op γ → Option γ} (h : ∀ γ op, ∀ r ∈ env γ op, admits γ op r)
    {outcome : Option α} (hrun : p.run env = some outcome) : p.Yields admits outcome := by
  induction p with
  | pure a => exact (Option.some.inj hrun).symm
  | throw e => exact (Option.some.inj hrun).symm
  | call op next ih =>
    obtain ⟨r, hr, hrun⟩ := Option.bind_eq_some_iff.mp hrun
    exact ⟨r, h _ op r hr, ih r hrun⟩

theorem Ensures.of_yields (h : p.Ensures admits Q) (ha : p.Yields admits (some a)) : Q a := by
  induction p with
  | pure b =>
    obtain rfl := Option.some.inj ha
    exact h
  | throw e => cases ha
  | call op next ih =>
    obtain ⟨r, hr, ha⟩ := ha
    exact ih r (h r hr) ha

theorem Ensures.mono {Q' : α → Prop} (h : p.Ensures admits Q) (hQ : ∀ a, Q a → Q' a) :
    p.Ensures admits Q' := by
  induction p with
  | pure a => exact hQ a h
  | throw e => trivial
  | call op next ih => exact fun r hr => ih r (h r hr)

theorem Ensures.pure (h : Q a) : (Pure.pure a : Prog Op ε α).Ensures admits Q := h

/-- Nothing is said about the result. -/
theorem Ensures.any (p : Prog Op ε α) : p.Ensures admits fun _ => True := by
  induction p with
  | pure a => trivial
  | throw e => trivial
  | call op next ih => exact fun r _ => ih r

theorem Ensures.bind (hp : p.Ensures admits Q) (hf : ∀ a, Q a → (f a).Ensures admits Q') :
    (p >>= f).Ensures admits Q' := by
  induction p with
  | pure a => exact hf a hp
  | throw e => trivial
  | call op next ih => exact fun r hr => ih r (hp r hr)

/-- What comes before does not matter. -/
theorem Ensures.after (hf : ∀ a, (f a).Ensures admits Q') : (p >>= f).Ensures admits Q' :=
  (Ensures.any p).bind fun a _ => hf a

theorem Ensures.call {f : γ → Prog Op ε β} (hf : ∀ r, admits γ op r → (f r).Ensures admits Q') :
    (perform op >>= f).Ensures admits Q' := fun r hr => hf r hr

theorem Ensures.ite [Decidable c] (hp : c → p.Ensures admits Q) (hq : ¬ c → q.Ensures admits Q) :
    (if c then p else q).Ensures admits Q := by
  split
  next h => exact hp h
  next h => exact hq h

theorem Ensures.exit [Decidable c] (ha : Q a) (hq : ¬ c → q.Ensures admits Q) :
    (if c then Pure.pure a else q).Ensures admits Q :=
  .ite (fun _ => ha) hq

theorem Ensures.ofExcept (hQ : ∀ a, x = .ok a → Q a) :
    (Prog.ofExcept x : Prog Op ε α).Ensures admits Q := by
  cases x with
  | error e => trivial
  | ok a => exact hQ a rfl

theorem Returns.ensures (h : p.Returns admits Q) : p.Ensures admits Q := by
  induction p with
  | pure a => exact h
  | throw e => trivial
  | call op next ih => exact fun r hr => ih r (h r hr)

/-! ## Answers that make no difference -/

/-- After answers that are alike the program goes on in the same way. -/
def Respects (alike : ∀ γ, Op γ → γ → γ → Prop) : Prog Op ε α → Prop
  | .pure _ => True
  | .throw _ => True
  | .call op next =>
    (∀ r, (next r).Respects alike) ∧ ∀ r r', alike _ op r r' → next r = next r'

variable {alike : ∀ γ, Op γ → γ → γ → Prop}

theorem Respects.bind (hp : p.Respects alike) (hf : ∀ a, (f a).Respects alike) :
    (p >>= f).Respects alike := by
  induction p with
  | pure a => exact hf a
  | throw e => trivial
  | call op next ih =>
    refine ⟨fun r => ih r (hp.1 r), fun r r' h => ?_⟩
    show (next r).bind f = (next r').bind f
    rw [hp.2 r r' h]

theorem Respects.call {f : γ → Prog Op ε β} (hf : ∀ r, (f r).Respects alike)
    (hsame : ∀ r r', alike γ op r r' → f r = f r') : (perform op >>= f).Respects alike :=
  ⟨hf, hsame⟩

theorem Respects.ite [Decidable c] (hp : p.Respects alike) (hq : q.Respects alike) :
    (if c then p else q).Respects alike := by
  split
  · exact hp
  · exact hq

/-- Environments whose answers are alike give the same outcomes. -/
theorem Respects.yields {outcome : Option α} (h : p.Respects alike)
    (hanswer : ∀ γ op r, admits γ op r → ∃ r', admits' γ op r' ∧ alike γ op r r')
    (hyields : p.Yields admits outcome) : p.Yields admits' outcome := by
  induction p with
  | pure a => exact hyields
  | throw e => exact hyields
  | call op next ih =>
    obtain ⟨r, hr, hyields⟩ := hyields
    obtain ⟨r', hr', halike⟩ := hanswer _ op r hr
    refine ⟨r', hr', ?_⟩
    rw [← h.2 r r' halike]
    exact ih r (h.1 r) hyields

end Prog

/-- Two interfaces side by side. -/
inductive OpSum (A B : Type → Type 1) : Type → Type 1
  | inl {γ : Type} (op : A γ) : OpSum A B γ
  | inr {γ : Type} (op : B γ) : OpSum A B γ

end Base
