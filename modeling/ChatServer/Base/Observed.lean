import ChatServer.Base.Prog

/-!
# Runs of programs under an observer

A run of a program is the list of its calls with the answers they got. An
observer is a state that changes with every call and answer.

* `Runs p τ a` — `p` makes the calls `τ` and returns `a`; `runs_of_trace` evaluates
  one;
* `Confined.of_runs` — a run of a confined program;
* `Obeys see guar Q p s` — however the calls are answered, every call `p` makes meets
  `guar` of the observer before it, and `Q` holds of a result and of the observer that
  started in `s`; `Leaves see Q p s` — the same with nothing guaranteed of the calls;
* `Obeys.bind`, `Obeys.call`, `Obeys.ite` — its rules; `Obeys.simulate` and
  `Obeys.handle` are those for calls that are programs themselves;
* `Obeys.of_runs` — what it says of a run.
-/

namespace Base

universe u v

variable {Op : Type → Type 1} {ε α β γ : Type}

/-- A call and its answer. -/
structure Event (Op : Type → Type 1) where
  {γ : Type}
  op : Op γ
  answer : γ

namespace Prog

/-- The program makes the calls of `τ`, in this order and with these answers, and
returns `b`. -/
def Runs : Prog Op ε α → List (Event Op) → α → Prop
  | .pure a, τ, b => τ = [] ∧ b = a
  | .throw _, _, _ => False
  | .call op next, τ, b => ∃ r rest, τ = ⟨op, r⟩ :: rest ∧ (next r).Runs rest b

/-- The run under fixed answers; `none` if the program throws or asks for another. -/
def trace (env : ∀ γ, Op γ → Option γ) : Prog Op ε α → Option (List (Event Op) × α)
  | .pure a => some ([], a)
  | .throw _ => none
  | .call op next =>
    (env _ op).bind fun r => ((next r).trace env).map fun p => (⟨op, r⟩ :: p.1, p.2)

variable {p q : Prog Op ε α} {τ : List (Event Op)} {a : α} {c : Prop} {Op' : Type → Type 1}

theorem runs_of_trace {env : ∀ γ, Op γ → Option γ} (h : p.trace env = some (τ, a)) :
    p.Runs τ a := by
  induction p generalizing τ with
  | pure b =>
    obtain ⟨rfl, rfl⟩ := Prod.mk.inj (Option.some.inj h)
    exact ⟨rfl, rfl⟩
  | throw e => cases h
  | call op next ih =>
    obtain ⟨r, -, h⟩ := Option.bind_eq_some_iff.mp h
    obtain ⟨⟨rest, b⟩, htrace, heq⟩ := Option.map_eq_some_iff.mp h
    obtain ⟨rfl, rfl⟩ := Prod.mk.inj heq
    exact ⟨r, rest, rfl, ih r htrace⟩

/-- The answers of an evaluated run are those of its environment. -/
theorem admits_of_trace {admits : ∀ γ, Op γ → γ → Prop} {env : ∀ γ, Op γ → Option γ}
    (henv : ∀ γ op, ∀ r ∈ env γ op, admits γ op r) (h : p.trace env = some (τ, a)) :
    ∀ e ∈ τ, admits _ e.op e.answer := by
  induction p generalizing τ with
  | pure b =>
    obtain ⟨rfl, -⟩ := Prod.mk.inj (Option.some.inj h)
    exact List.forall_mem_nil _
  | throw e => cases h
  | call op next ih =>
    obtain ⟨r, hr, h⟩ := Option.bind_eq_some_iff.mp h
    obtain ⟨⟨rest, b⟩, htrace, heq⟩ := Option.map_eq_some_iff.mp h
    obtain ⟨rfl, rfl⟩ := Prod.mk.inj heq
    exact List.forall_mem_cons.mpr ⟨henv _ op r hr, ih r htrace⟩

/-- What a confined program says of a run whose answers are admitted. -/
theorem Confined.of_runs {admits : ∀ γ, Op γ → γ → Prop} {allowed : ∀ γ, Op γ → Prop}
    {Q : α → Prop} (h : p.Confined admits allowed Q) (hrun : p.Runs τ a)
    (hadmits : ∀ e ∈ τ, admits _ e.op e.answer) : Q a ∧ ∀ e ∈ τ, allowed _ e.op := by
  induction p generalizing τ with
  | pure b =>
    obtain ⟨rfl, rfl⟩ := hrun
    exact ⟨h, List.forall_mem_nil _⟩
  | throw e => exact h.elim
  | call op next ih =>
    obtain ⟨r, rest, rfl, hrun⟩ := hrun
    obtain ⟨hr, hrest⟩ := List.forall_mem_cons.mp hadmits
    obtain ⟨ha, hallowed⟩ := ih r (h.2 r hr) hrun hrest
    exact ⟨ha, List.forall_mem_cons.mpr ⟨h.1, hallowed⟩⟩

/-! ## What a program guarantees of its calls -/

variable {σ : Type u} (see : σ → Event Op → σ)

/-- However the calls are answered, each of them meets `guar` of the observer before
it; a result meets `Q` with the observer at the end. -/
def Obeys (guar : σ → ∀ {γ : Type}, Op γ → Prop) (Q : α → σ → Prop) : Prog Op ε α → σ → Prop
  | .pure a, s => Q a s
  | .throw _, _ => True
  | .call op next, s => guar s op ∧ ∀ r, (next r).Obeys guar Q (see s ⟨op, r⟩)

/-- Nothing is guaranteed of the calls. -/
abbrev Leaves (Q : α → σ → Prop) (p : Prog Op ε α) (s : σ) : Prop :=
  p.Obeys see (fun _ _ _ => True) Q s

variable {see} {Q : α → σ → Prop} {Q' : β → σ → Prop} {s : σ}
  {guar : σ → ∀ {γ : Type}, Op γ → Prop}

theorem Obeys.of_runs (h : p.Obeys see guar Q s) (hrun : p.Runs τ a) : Q a (τ.foldl see s) := by
  induction p generalizing s τ with
  | pure b =>
    obtain ⟨rfl, rfl⟩ := hrun
    exact h
  | throw e => exact hrun.elim
  | call op next ih =>
    obtain ⟨r, rest, rfl, hrun⟩ := hrun
    show Q a (rest.foldl see (see s ⟨op, r⟩))
    exact ih r (h.2 r) hrun

theorem Obeys.pure (h : Q a s) : (Pure.pure a : Prog Op ε α).Obeys see guar Q s := h

theorem Obeys.mono {Q' : α → σ → Prop} (h : p.Obeys see guar Q s) (hQ : ∀ a s, Q a s → Q' a s) :
    p.Obeys see guar Q' s := by
  induction p generalizing s with
  | pure a => exact hQ a s h
  | throw e => trivial
  | call op next ih => exact ⟨h.1, fun r => ih r (h.2 r)⟩

theorem Obeys.bind {f : α → Prog Op ε β} (hp : p.Obeys see guar Q s)
    (hf : ∀ a s, Q a s → (f a).Obeys see guar Q' s) : (p >>= f).Obeys see guar Q' s := by
  induction p generalizing s with
  | pure a => exact hf a s hp
  | throw e => trivial
  | call op next ih => exact ⟨hp.1, fun r => ih r (hp.2 r)⟩

/-- A call followed by the rest of the program. -/
theorem Obeys.call {op : Op γ} {f : γ → Prog Op ε β} (hop : guar s op)
    (hf : ∀ r, (f r).Obeys see guar Q' (see s ⟨op, r⟩)) :
    (perform op >>= f).Obeys see guar Q' s := ⟨hop, hf⟩

theorem Obeys.perform {op : Op α} (hop : guar s op) (h : ∀ r, Q r (see s ⟨op, r⟩)) :
    (Prog.perform op : Prog Op ε α).Obeys see guar Q s := ⟨hop, h⟩

theorem Obeys.ite [Decidable c] (hp : c → p.Obeys see guar Q s) (hq : ¬ c → q.Obeys see guar Q s) :
    (if c then p else q).Obeys see guar Q s := by
  split
  next h => exact hp h
  next h => exact hq h

theorem Obeys.exit [Decidable c] (ha : Q a s) (hq : ¬ c → q.Obeys see guar Q s) :
    (if c then Pure.pure a else q).Obeys see guar Q s :=
  .ite (fun _ => ha) hq

/-- What comes before does not matter. -/
theorem Obeys.after {f : α → Prog Op ε β} (hf : ∀ a s, (f a).Leaves see Q' s) :
    (p >>= f).Leaves see Q' s := by
  induction p generalizing s with
  | pure a => exact hf a s
  | throw e => trivial
  | call op next ih => exact ⟨trivial, fun r => ih r⟩

/-- Calls that are programs, watched by an observer of another kind: each of them
keeps the two observers related. -/
theorem Obeys.simulate {h : ∀ γ, Op γ → Prog Op' ε γ} {σ' : Type v} {see' : σ' → Event Op' → σ'}
    {guar' : σ' → ∀ {γ : Type}, Op' γ → Prop} {R : σ → σ' → Prop}
    (hcall : ∀ s s' γ (op : Op γ), R s s' → guar s op →
      (h γ op).Obeys see' guar' (fun r t => R (see s ⟨op, r⟩) t) s')
    {s' : σ'} (hp : p.Obeys see guar Q s) (hs : R s s') :
    (p.handle h).Obeys see' guar' (fun a t => ∃ s, R s t ∧ Q a s) s' := by
  induction p generalizing s s' with
  | pure a => exact ⟨s, hs, hp⟩
  | throw e => trivial
  | call op next ih =>
    exact (hcall s s' _ op hs hp.1).bind fun r t ht => ih r (hp.2 r) ht

/-- The same with one kind of observer. -/
theorem Obeys.handle {h : ∀ γ, Op γ → Prog Op' ε γ} {see' : σ → Event Op' → σ}
    {guar' : σ → ∀ {γ : Type}, Op' γ → Prop}
    (hcall : ∀ s γ (op : Op γ), guar s op →
      (h γ op).Obeys see' guar' (fun r s' => s' = see s ⟨op, r⟩) s)
    (hp : p.Obeys see guar Q s) : (p.handle h).Obeys see' guar' Q s := by
  refine (hp.simulate (R := fun s t => t = s) (fun s s' γ op hs hop => ?_) rfl).mono
    fun a t ht => ?_
  · subst hs
    exact hcall s' γ op hop
  · obtain ⟨s, rfl, hQ⟩ := ht
    exact hQ

/-- A program over another interface. -/
theorem Obeys.lift {f : ∀ {γ : Type}, Op γ → Op' γ} {see' : σ → Event Op' → σ}
    {guar' : σ → ∀ {γ : Type}, Op' γ → Prop} {p : Prog Op Empty α}
    (hp : p.Obeys (fun s e => see' s ⟨f e.op, e.answer⟩) (fun s _ op => guar' s (f op)) Q s) :
    (p.lift f : Prog Op' ε α).Obeys see' guar' Q s := by
  induction p generalizing s with
  | pure a => exact hp
  | throw e => exact e.elim
  | call op next ih => exact ⟨hp.1, fun r => ih r (hp.2 r)⟩

end Prog
end Base
