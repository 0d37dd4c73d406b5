import Mathlib.Algebra.Order.Group.Multiset
import Mathlib.Data.Multiset.Count
import ChatServer.Redis.SessionStore

/-!
# The life of a connection

A connection id is given out once. Its connection is registered, then closed,
and closing it makes one call of `onConnectionClosed`, which takes the session
away: the call waits in the pool, runs in a worker and ends, or is made in
place. `Custody` is what of this can be seen from outside, `Evolves` the steps
it can take, and the two invariants are that the calls add up (`Ledger`) and
that the network layer and the session layer agree (`Agreement`).
-/

namespace ChatServer.App

@[ext]
structure Custody where
  nextConnId : ConnId
  registered : ConnId → Bool
  /-- the user of a connection in the network layer -/
  userOf : ConnId → UserId
  /-- the session of a connection in the session layer -/
  session : ConnId → Option ConnectionSession
  /-- calls of `onConnectionClosed` waiting in the pool and running in a worker -/
  cleanups : Multiset ConnId
  cleaning : Multiset ConnId
  /-- history: connections registered, calls begun and calls finished -/
  accepted : List ConnId
  begun : List ConnId
  finished : List ConnId

namespace Custody

/-- One step. `P c u o` is what is known about a session action that leaves
connection `c` with user `u` and session `o`. -/
inductive Evolves (P : ConnId → UserId → Option ConnectionSession → Prop) (v : Custody) :
    Custody → Prop
  | same : Evolves P v v
  | accept : Evolves P v
      { v with
        nextConnId := v.nextConnId + 1
        registered := Function.update v.registered v.nextConnId true
        userOf := Function.update v.userOf v.nextConnId 0
        accepted := v.accepted ++ [v.nextConnId] }
  | close (c : ConnId) (hreg : v.registered c = true) : Evolves P v
      { v with
        registered := Function.update v.registered c false
        cleanups := {c} + v.cleanups }
  | closeInPlace (c : ConnId) (hreg : v.registered c = true) : Evolves P v
      { v with
        registered := Function.update v.registered c false
        session := Function.update v.session c none
        begun := v.begun ++ [c]
        finished := v.finished ++ [c] }
  | act (c : ConnId) (u : UserId) (o : Option ConnectionSession) (h : P c u o) : Evolves P v
      { v with
        userOf := Function.update v.userOf c u
        session := Function.update v.session c o }
  | begin (c : ConnId) (rest : Multiset ConnId) (hqueue : v.cleanups = {c} + rest) : Evolves P v
      { v with
        cleanups := rest
        cleaning := {c} + v.cleaning
        begun := v.begun ++ [c] }
  | finish (c : ConnId) (rest : Multiset ConnId) (hcleaning : v.cleaning = {c} + rest) :
      Evolves P v
      { v with
        cleaning := rest
        session := Function.update v.session c none
        finished := v.finished ++ [c] }

variable {P : ConnId → UserId → Option ConnectionSession → Prop} {v v' : Custody}

/-! ## Counting -/

theorem count_append_one (l : List ConnId) (c d : ConnId) :
    (l ++ [c]).count d = l.count d + if d = c then 1 else 0 := by
  rw [List.count_append, List.count_singleton]
  by_cases hd : d = c
  · simp [hd]
  · simp [hd, Ne.symm hd]

theorem count_one_add (m : Multiset ConnId) (c d : ConnId) :
    ({c} + m).count d = (if d = c then 1 else 0) + m.count d := by
  rw [Multiset.count_add, Multiset.count_singleton]

theorem toNat_update_false {f : ConnId → Bool} {c : ConnId} (h : f c = true) (d : ConnId) :
    (f d).toNat = (Function.update f c false d).toNat + if d = c then 1 else 0 := by
  by_cases hd : d = c
  · subst hd
    simp [h]
  · simp [hd]

theorem toNat_update_true {f : ConnId → Bool} {c : ConnId} (h : f c = false) (d : ConnId) :
    (Function.update f c true d).toNat = (f d).toNat + if d = c then 1 else 0 := by
  by_cases hd : d = c
  · subst hd
    simp [h]
  · simp [hd]

/-! ## The calls add up -/

structure Ledger (v : Custody) : Prop where
  fresh : ∀ c ∈ v.accepted, c < v.nextConnId
  nodup : v.accepted.Nodup
  /-- an accepted connection is open, or its call waits, or its call was begun -/
  account : ∀ c, v.accepted.count c =
    (v.registered c).toNat + v.cleanups.count c + v.begun.count c
  running : ∀ c, v.begun.count c = v.cleaning.count c + v.finished.count c

theorem Ledger.registered_mem (h : Ledger v) {c : ConnId} (hreg : v.registered c = true) :
    c ∈ v.accepted := by
  have haccount := h.account c
  rw [hreg] at haccount
  refine List.count_pos_iff.mp ?_
  simp only [Bool.toNat_true] at haccount
  omega

/-- A connection is at one place only. -/
theorem Ledger.at_most_one (h : Ledger v) (c : ConnId) :
    (v.registered c).toNat + v.cleanups.count c + v.cleaning.count c + v.finished.count c ≤ 1 := by
  have hone := List.nodup_iff_count_le_one.mp h.nodup c
  have haccount := h.account c
  have hrunning := h.running c
  omega

theorem Ledger.evolves (h : Ledger v) (hstep : Evolves P v v') : Ledger v' := by
  cases hstep with
  | same => exact h
  | accept =>
    have hnew : v.nextConnId ∉ v.accepted := fun hmem => absurd (h.fresh _ hmem) (lt_irrefl _)
    have hclosed : v.registered v.nextConnId = false := by
      by_contra hopen
      exact hnew (h.registered_mem (by simpa using hopen))
    refine ⟨fun c hc => ?_, ?_, fun c => ?_, h.running⟩
    · rcases List.mem_append.mp hc with hold | hself
      · exact Nat.lt_succ_of_lt (h.fresh c hold)
      · rw [List.mem_singleton.mp hself]
        exact Nat.lt_succ_self _
    · refine List.nodup_append.mpr ⟨h.nodup, List.nodup_singleton _, fun c hc d hd hcd => ?_⟩
      rw [List.mem_singleton.mp hd] at hcd
      exact hnew (hcd ▸ hc)
    · have haccount := h.account c
      simp only [count_append_one, toNat_update_true hclosed]
      omega
  | close c hreg =>
    refine ⟨h.fresh, h.nodup, fun d => ?_, h.running⟩
    have haccount := h.account d
    rw [toNat_update_false hreg] at haccount
    simp only [count_one_add]
    omega
  | closeInPlace c hreg =>
    refine ⟨h.fresh, h.nodup, fun d => ?_, fun d => ?_⟩
    · have haccount := h.account d
      rw [toNat_update_false hreg] at haccount
      simp only [count_append_one]
      omega
    · have hrunning := h.running d
      simp only [count_append_one]
      omega
  | act c u o _ => exact ⟨h.fresh, h.nodup, h.account, h.running⟩
  | begin c rest hqueue =>
    refine ⟨h.fresh, h.nodup, fun d => ?_, fun d => ?_⟩
    · have haccount := h.account d
      rw [hqueue, count_one_add] at haccount
      simp only [count_append_one]
      omega
    · have hrunning := h.running d
      simp only [count_append_one, count_one_add]
      omega
  | finish c rest hcleaning =>
    refine ⟨h.fresh, h.nodup, h.account, fun d => ?_⟩
    have hrunning := h.running d
    rw [hcleaning, count_one_add] at hrunning
    simp only [count_append_one]
    omega

/-! ## The layers agree -/

/-- The user of the network layer is the user of the session. -/
def Mirrors (u : UserId) : Option ConnectionSession → Prop
  | none => u = 0
  | some session => session.authenticated = true ∧ session.userId = u ∧ 0 < u

structure Agreement (v : Custody) : Prop where
  /-- a session belongs to a connection that is open or has its cleanup ahead -/
  held : ∀ c, v.session c ≠ none →
    v.registered c = true ∨ 0 < v.cleanups.count c + v.cleaning.count c
  mirrors : ∀ c, v.registered c = true → Mirrors (v.userOf c) (v.session c)

/-- Session actions are applied to open connections, the same way in both layers. -/
def Live (v : Custody) (c : ConnId) (u : UserId) (o : Option ConnectionSession) : Prop :=
  v.registered c = true ∧ Mirrors u o

theorem Agreement.evolves (hledger : Ledger v) (h : Agreement v)
    (hstep : Evolves v.Live v v') : Agreement v' := by
  cases hstep with
  | same => exact h
  | accept =>
    -- no session is there for the new connection
    have hnone : v.session v.nextConnId = none := by
      by_contra hsome
      have hmem : v.nextConnId ∈ v.accepted := by
        rcases h.held _ hsome with hreg | hahead
        · exact hledger.registered_mem hreg
        · have haccount := hledger.account v.nextConnId
          have hrunning := hledger.running v.nextConnId
          exact List.count_pos_iff.mp (by omega)
      exact absurd (hledger.fresh _ hmem) (lt_irrefl _)
    refine ⟨fun c hc => ?_, fun c hc => ?_⟩
    · by_cases hnew : c = v.nextConnId
      · subst hnew
        exact absurd hnone hc
      · simpa [hnew] using h.held c hc
    · by_cases hnew : c = v.nextConnId
      · subst hnew
        simp [hnone, Mirrors]
      · simp only [Function.update_of_ne hnew] at hc ⊢
        exact h.mirrors c hc
  | close c hreg =>
    refine ⟨fun d hd => ?_, fun d hd => ?_⟩
    · simp only [count_one_add]
      by_cases hc : d = c
      · refine .inr ?_
        rw [if_pos hc]
        omega
      · simpa [hc] using h.held d hd
    · by_cases hc : d = c
      · simp [hc] at hd
      · exact h.mirrors d (by simpa [hc] using hd)
  | closeInPlace c hreg =>
    refine ⟨fun d hd => ?_, fun d hd => ?_⟩
    · by_cases hc : d = c
      · simp [hc] at hd
      · simp only [Function.update_of_ne hc] at hd ⊢
        exact h.held d hd
    · by_cases hc : d = c
      · simp [hc] at hd
      · simp only [Function.update_of_ne hc] at hd ⊢
        exact h.mirrors d hd
  | act c u o hlive =>
    refine ⟨fun d hd => ?_, fun d hd => ?_⟩
    · by_cases hc : d = c
      · exact .inl (hc ▸ hlive.1)
      · exact h.held d (by simpa [hc] using hd)
    · by_cases hc : d = c
      · simpa [hc] using hlive.2
      · simpa [hc] using h.mirrors d hd
  | begin c rest hqueue =>
    refine ⟨fun d hd => ?_, h.mirrors⟩
    have hheld := h.held d hd
    rw [hqueue, count_one_add] at hheld
    simp only [count_one_add]
    refine hheld.imp_right fun hahead => ?_
    omega
  | finish c rest hcleaning =>
    refine ⟨fun d hd => ?_, fun d hd => ?_⟩
    · by_cases hc : d = c
      · simp [hc] at hd
      · have hheld := h.held d (by simpa [hc] using hd)
        rw [hcleaning, count_one_add, if_neg hc, Nat.zero_add] at hheld
        exact hheld
    · by_cases hc : d = c
      · -- the cleanup of an open connection is not running
        have hone := hledger.at_most_one c
        rw [hcleaning, count_one_add, if_pos rfl, ← hc, show v.registered d = true from hd,
          Bool.toNat_true] at hone
        omega
      · simpa [hc] using h.mirrors d hd

/-! ## What follows -/

/-- After its cleanup a connection has no session. -/
theorem Agreement.session_of_finished (h : Agreement v) (hledger : Ledger v) {c : ConnId}
    (hc : c ∈ v.finished) : v.session c = none := by
  by_contra hsome
  have hone := hledger.at_most_one c
  have hpos := List.count_pos_iff.mpr hc
  rcases h.held c hsome with hreg | hahead
  · rw [hreg, Bool.toNat_true] at hone
    omega
  · omega

/-- Nothing is open and nothing is under way. -/
structure Quiescent (v : Custody) : Prop where
  registered : ∀ c, v.registered c = false
  cleanups : v.cleanups = 0
  cleaning : v.cleaning = 0

theorem Ledger.of_quiescent (h : Ledger v) (hquiet : Quiescent v) :
    v.begun.Perm v.accepted ∧ v.finished.Perm v.accepted := by
  have hbegun : ∀ c, v.begun.count c = v.accepted.count c := by
    intro c
    rw [h.account, hquiet.registered, hquiet.cleanups, Multiset.count_zero, Bool.toNat_false,
      Nat.zero_add]
  refine ⟨List.perm_iff_count.mpr hbegun, List.perm_iff_count.mpr fun c => ?_⟩
  rw [← hbegun, h.running, hquiet.cleaning, Multiset.count_zero, Nat.zero_add]

theorem Agreement.of_quiescent (h : Agreement v) (hquiet : Quiescent v) (c : ConnId) :
    v.session c = none := by
  by_contra hsome
  rcases h.held c hsome with hreg | hahead
  · rw [hquiet.registered] at hreg
    cases hreg
  · rw [hquiet.cleanups, hquiet.cleaning] at hahead
    exact absurd hahead (by simp)

end Custody
end ChatServer.App
