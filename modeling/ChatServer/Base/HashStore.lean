import Mathlib.Logic.Function.Basic
import Mathlib.Data.Option.Basic

/-!
# Keyed hashes with deadlines

A store of hashes, each a partial map from fields to values and possibly a
deadline, with the commands `hget`, `hset`, `del` and `expire`. Time is a
number; `purge` drops what is due. `put` is the usual pair of `hset` and
`expire` on a key whose hash has no other fields.
-/

namespace Base

/-- One hash and when it expires. -/
structure Entry (F V : Type) where
  fields : F → Option V
  deadline : Option Nat

/-- The hash with exactly these fields. -/
def Entry.of {F V : Type} [DecidableEq F] (ps : List (F × V)) (deadline : Option Nat) : Entry F V :=
  ⟨fun f => ps.lookup f, deadline⟩

abbrev HashStore (K F V : Type) := K → Option (Entry F V)

namespace HashStore

variable {K F V : Type} [DecidableEq K] [DecidableEq F]

def hget (s : HashStore K F V) (k : K) (f : F) : Option V := (s k).bind (·.fields f)

def del (s : HashStore K F V) (k : K) : HashStore K F V := Function.update s k none

/-- Set some fields, keep the others and the deadline. -/
def hset (s : HashStore K F V) (k : K) (ps : List (F × V)) : HashStore K F V :=
  Function.update s k <| some
    ⟨fun f => (ps.lookup f).or ((s k).bind (·.fields f)), (s k).bind (·.deadline)⟩

/-- A deadline `ttl` from now; none left means gone at once. -/
def expire (s : HashStore K F V) (k : K) (now ttl : Nat) : HashStore K F V :=
  match s k with
  | none => s
  | some e => if ttl = 0 then del s k else Function.update s k (some { e with deadline := some (now + ttl) })

/-- What is left at time `now`. -/
def purge (s : HashStore K F V) (now : Nat) : HashStore K F V :=
  fun k => (s k).filter fun e => e.deadline.all (now < ·)

/-- What is kept for `ttl` from now. -/
def lasting {α : Type} (now ttl : Nat) (f : Nat → α) : Option α :=
  if ttl = 0 then none else some (f (now + ttl))

/-- Replace a hash by one with exactly these fields. -/
def put (s : HashStore K F V) (k : K) (ps : List (F × V)) (now ttl : Nat) : HashStore K F V :=
  Function.update s k (lasting now ttl fun d => Entry.of ps (some d))

omit [DecidableEq F] in
theorem expire_update {s : HashStore K F V} {k : K} {e : Entry F V} (now ttl : Nat) :
    expire (Function.update s k (some e)) k now ttl =
      Function.update s k (lasting now ttl fun d => ⟨e.fields, some d⟩) := by
  unfold expire lasting
  rw [Function.update_self]
  dsimp only
  split
  · rw [del, Function.update_idem]
  · rw [Function.update_idem]

omit [DecidableEq K] in
/-- Which fields are missing depends on the field names only. -/
theorem lookup_none_of_fields {ps qs : List (F × V)} (h : qs.map Prod.fst = ps.map Prod.fst) {f : F}
    (hf : ps.lookup f = none) : qs.lookup f = none := by
  rw [List.lookup_eq_none_iff] at hf ⊢
  intro q hq
  have hmem : q.1 ∈ ps.map Prod.fst := h ▸ List.mem_map_of_mem hq
  obtain ⟨p, hp, hpq⟩ := List.mem_map.mp hmem
  rw [← hpq]
  exact hf p hp

/-- `hset` then `expire` is `put` when the old hash has the same field names. -/
theorem expire_hset {s : HashStore K F V} {k : K} {ps : List (F × V)} (now ttl : Nat)
    (h : ∀ e, s k = some e → ∃ qs d, e = Entry.of qs d ∧ qs.map Prod.fst = ps.map Prod.fst) :
    (s.hset k ps).expire k now ttl = s.put k ps now ttl := by
  have hfields : (fun f => (ps.lookup f).or ((s k).bind (·.fields f))) = fun f => ps.lookup f := by
    funext f
    cases hf : ps.lookup f with
    | some v => rfl
    | none =>
      cases he : s k with
      | none => rfl
      | some e =>
        obtain ⟨qs, d, rfl, hqs⟩ := h e he
        exact lookup_none_of_fields hqs hf
  rw [hset, expire_update, hfields]
  rfl

end HashStore
end Base
