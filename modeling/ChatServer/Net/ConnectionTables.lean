import ChatServer.Base.Lts
import ChatServer.Common.Types
import Mathlib.Data.Int.Order.Basic
import Mathlib.Data.List.Nodup
import Mathlib.Logic.Function.Basic

/-!
# The connection tables

`connections_`, `fd_to_context_` and `authenticated_connections_` with the
context objects they point to, and the five operations that change them. The
kernel hands out any descriptor that is not open.

* `Indexed` — the first two tables hold the same contexts;
* `Listed` — the third one lists the authenticated connections;
* `tables_coherent` — both hold after any sequence of operations.
-/

namespace ChatServer.Net

abbrev Fd := Int

/-- A `shared_ptr` to a context, by the order of allocation. -/
abbrev ContextPtr := Nat

/-- The fields of a `ConnectionContext` the tables depend on. A closed context
has descriptor `-1`. -/
structure ContextObject where
  connId : ConnId := 0
  fd : Fd := -1
  authenticatedUserId : UserId := 0
  deriving DecidableEq

structure ConnectionTables where
  nextConnId : ConnId := 1
  allocated : Nat := 0
  objects : ContextPtr → ContextObject := fun _ => {}
  connections : ConnId → Option ContextPtr := fun _ => none
  fdToContext : Fd → Option ContextPtr := fun _ => none
  authenticatedConnections : UserId → Option (List ConnId) := fun _ => none

inductive TableLabel
  | registerConnection (fd : Fd)
  | closeClientFd (fd : Fd)
  | bindAuthenticatedConnection (p : ContextPtr) (u : UserId)
  | unbindAuthenticatedConnection (p : ContextPtr)
  deriving DecidableEq

namespace ConnectionTables

/-- A user's list without a connection; a list that gets empty goes. -/
def without (c : ConnId) : Option (List ConnId) → Option (List ConnId)
  | none => none
  | some conns =>
    let rest := conns.filter (· ≠ c)
    if rest.isEmpty then none else some rest

variable (t : ConnectionTables)

/-- `registerConnection`. -/
def registerConnection (fd : Fd) : ConnectionTables :=
  { t with
    nextConnId := t.nextConnId + 1
    allocated := t.allocated + 1
    objects := Function.update t.objects t.allocated ⟨t.nextConnId, fd, 0⟩
    connections := Function.update t.connections t.nextConnId (some t.allocated)
    fdToContext := Function.update t.fdToContext fd (some t.allocated) }

/-- Take a context out of `authenticated_connections_`. -/
def dropAuthenticated (p : ContextPtr) : ConnectionTables :=
  let u := (t.objects p).authenticatedUserId
  { t with
    authenticatedConnections := Function.update t.authenticatedConnections u
      (without (t.objects p).connId (t.authenticatedConnections u)) }

/-- The two index entries of a context go. -/
def eraseIndex (p : ContextPtr) : ConnectionTables :=
  { t with
    fdToContext := Function.update t.fdToContext (t.objects p).fd none
    connections := Function.update t.connections (t.objects p).connId none }

/-- `unregisterConnection`; `none` when it returns `false`. -/
def unregisterConnection (p : ContextPtr) : Option ConnectionTables :=
  if t.connections (t.objects p).connId = some p then
    some ((t.eraseIndex p).dropAuthenticated p)
  else none

/-- `setAuthenticatedUserId` and `clearAuthenticatedUserId`. -/
def setAuthenticatedUserId (p : ContextPtr) (u : UserId) : ConnectionTables :=
  { t with objects := Function.update t.objects p { t.objects p with authenticatedUserId := u } }

/-- `closeConnection`: the descriptor is given back to the kernel. -/
def closeConnection (p : ContextPtr) : ConnectionTables :=
  { t with objects := Function.update t.objects p { t.objects p with fd := -1 } }

/-- `closeClientFd`. -/
def closeClientFd (fd : Fd) : ConnectionTables :=
  match t.fdToContext fd with
  | none => t
  | some p =>
    match t.unregisterConnection p with
    | none => t
    | some t' => t'.closeConnection p

/-- `unbindAuthenticatedConnection`. -/
def unbindAuthenticatedConnection (p : ContextPtr) : ConnectionTables :=
  (t.dropAuthenticated p).setAuthenticatedUserId p 0

/-- A connection goes on its user's list, if it is not there. -/
def listConnection (c : ConnId) (u : UserId) : ConnectionTables :=
  let conns := (t.authenticatedConnections u).getD []
  { t with
    authenticatedConnections := Function.update t.authenticatedConnections u
      (some (if c ∈ conns then conns else conns ++ [c])) }

/-- `bindAuthenticatedConnection`. -/
def bindAuthenticatedConnection (p : ContextPtr) (u : UserId) : ConnectionTables :=
  let t := t.unbindAuthenticatedConnection p
  (t.listConnection (t.objects p).connId u).setAuthenticatedUserId p u

/-- The context is in the tables. -/
def Registered (p : ContextPtr) : Prop :=
  p < t.allocated ∧ t.connections (t.objects p).connId = some p

instance (p : ContextPtr) : Decidable (t.Registered p) := inferInstanceAs (Decidable (_ ∧ _))

/-- The descriptor is not open: no context has it. -/
def Fresh (fd : Fd) : Prop := 0 ≤ fd ∧ ∀ p < t.allocated, (t.objects p).fd ≠ fd

instance (fd : Fd) : Decidable (t.Fresh fd) := inferInstanceAs (Decidable (_ ∧ _))

def step : TableLabel → Option ConnectionTables
  | .registerConnection fd => if t.Fresh fd then some (t.registerConnection fd) else none
  | .closeClientFd fd => some (t.closeClientFd fd)
  | .bindAuthenticatedConnection p u =>
    if t.Registered p then some (t.bindAuthenticatedConnection p u) else none
  | .unbindAuthenticatedConnection p =>
    if t.Registered p then some (t.unbindAuthenticatedConnection p) else none

/-- The tables of a server that starts. -/
def lts : Base.Lts ConnectionTables TableLabel where
  Init t := t = {}
  step := step

/-! ## The two indexes -/

/-- Every context has its own number and descriptor, and it is in both indexes
or in neither. -/
structure Indexed : Prop where
  connId_lt : ∀ p < t.allocated, (t.objects p).connId < t.nextConnId
  connId_inj : ∀ p < t.allocated, ∀ q < t.allocated,
    (t.objects p).connId = (t.objects q).connId → p = q
  ofConnId : ∀ c p, t.connections c = some p → p < t.allocated ∧ (t.objects p).connId = c
  ofFd : ∀ fd p, t.fdToContext fd = some p →
    0 ≤ fd ∧ p < t.allocated ∧ (t.objects p).fd = fd
  same : ∀ p < t.allocated,
    t.connections (t.objects p).connId = some p ↔ t.fdToContext (t.objects p).fd = some p

variable {t} {t' : ConnectionTables} {p : ContextPtr} {c : ConnId} {u : UserId} {fd : Fd}

/-- The indexes do not depend on who is authenticated. -/
theorem Indexed.congr (h : Indexed t) (hnext : t'.nextConnId = t.nextConnId)
    (halloc : t'.allocated = t.allocated) (hconns : t'.connections = t.connections)
    (hfds : t'.fdToContext = t.fdToContext)
    (hobjects : ∀ p, (t'.objects p).connId = (t.objects p).connId ∧
      (t'.objects p).fd = (t.objects p).fd) : Indexed t' := by
  constructor
  · intro p hp
    rw [(hobjects p).1, hnext]
    exact h.connId_lt p (halloc ▸ hp)
  · intro p hp q hq hpq
    rw [(hobjects p).1, (hobjects q).1] at hpq
    exact h.connId_inj p (halloc ▸ hp) q (halloc ▸ hq) hpq
  · intro c p hc
    rw [halloc, (hobjects p).1]
    exact h.ofConnId c p (hconns ▸ hc)
  · intro fd p hfd
    rw [halloc, (hobjects p).2]
    exact h.ofFd fd p (hfds ▸ hfd)
  · intro p hp
    rw [(hobjects p).1, (hobjects p).2, hconns, hfds]
    exact h.same p (halloc ▸ hp)

/-- The next number is not in use. -/
theorem Indexed.next_free (h : Indexed t) : t.connections t.nextConnId = none := by
  cases hc : t.connections t.nextConnId with
  | none => rfl
  | some p =>
    obtain ⟨hp, hid⟩ := h.ofConnId _ p hc
    exact absurd hid (Nat.ne_of_lt (h.connId_lt p hp))

theorem Indexed.registerConnection (h : Indexed t) (hfresh : t.Fresh fd) :
    Indexed (t.registerConnection fd) := by
  have hold : ∀ p, p < t.allocated →
      (t.registerConnection fd).objects p = t.objects p := fun p hp =>
    Function.update_of_ne (Nat.ne_of_lt hp) _ _
  have hnew : (t.registerConnection fd).objects t.allocated = ⟨t.nextConnId, fd, 0⟩ :=
    Function.update_self ..
  have hsplit : ∀ p, p < t.allocated + 1 → p = t.allocated ∨ p < t.allocated := by omega
  constructor
  · intro p hp
    rcases hsplit p hp with rfl | hp
    · rw [hnew]
      exact Nat.lt_succ_self _
    · rw [hold p hp]
      exact Nat.lt_succ_of_lt (h.connId_lt p hp)
  · intro p hp q hq hpq
    rcases hsplit p hp with rfl | hp
    · rcases hsplit q hq with rfl | hq
      · rfl
      · rw [hnew, hold q hq] at hpq
        exact absurd hpq (Nat.ne_of_gt (h.connId_lt q hq))
    · rcases hsplit q hq with rfl | hq
      · rw [hnew, hold p hp] at hpq
        exact absurd hpq (Nat.ne_of_lt (h.connId_lt p hp))
      · rw [hold p hp, hold q hq] at hpq
        exact h.connId_inj p hp q hq hpq
  · intro c p hc
    by_cases hself : c = t.nextConnId
    · subst hself
      obtain rfl : t.allocated = p := by
        simpa [ConnectionTables.registerConnection] using hc
      exact ⟨Nat.lt_succ_self _, by rw [hnew]⟩
    · have hc' : t.connections c = some p := by
        simpa [ConnectionTables.registerConnection, hself] using hc
      obtain ⟨hp, hid⟩ := h.ofConnId c p hc'
      exact ⟨Nat.lt_succ_of_lt hp, by rw [hold p hp, hid]⟩
  · intro f p hf
    by_cases hself : f = fd
    · subst hself
      obtain rfl : t.allocated = p := by
        simpa [ConnectionTables.registerConnection] using hf
      exact ⟨hfresh.1, Nat.lt_succ_self _, by rw [hnew]⟩
    · have hf' : t.fdToContext f = some p := by
        simpa [ConnectionTables.registerConnection, hself] using hf
      obtain ⟨hpos, hp, hfd⟩ := h.ofFd f p hf'
      exact ⟨hpos, Nat.lt_succ_of_lt hp, by rw [hold p hp, hfd]⟩
  · intro p hp
    rcases hsplit p hp with rfl | hp
    · rw [hnew]
      simp [ConnectionTables.registerConnection]
    · have hne : (t.objects p).connId ≠ t.nextConnId := Nat.ne_of_lt (h.connId_lt p hp)
      rw [hold p hp]
      show Function.update t.connections _ _ _ = _ ↔ Function.update t.fdToContext _ _ _ = _
      rw [Function.update_of_ne hne, Function.update_of_ne (hfresh.2 p hp)]
      exact h.same p hp

theorem Indexed.dropAuthenticated (h : Indexed t) (p : ContextPtr) :
    Indexed (t.dropAuthenticated p) := h.congr rfl rfl rfl rfl fun _ => ⟨rfl, rfl⟩

theorem Indexed.setAuthenticatedUserId (h : Indexed t) (p : ContextPtr) (u : UserId) :
    Indexed (t.setAuthenticatedUserId p u) := by
  refine h.congr rfl rfl rfl rfl fun q => ?_
  by_cases hq : q = p
  · subst hq
    simp [ConnectionTables.setAuthenticatedUserId]
  · simp [ConnectionTables.setAuthenticatedUserId, hq]

theorem Indexed.bindAuthenticatedConnection (h : Indexed t) (p : ContextPtr) (u : UserId) :
    Indexed (t.bindAuthenticatedConnection p u) := by
  have hunbound : Indexed (t.unbindAuthenticatedConnection p) :=
    (h.dropAuthenticated p).setAuthenticatedUserId p 0
  have hlisted : Indexed ((t.unbindAuthenticatedConnection p).listConnection
      ((t.unbindAuthenticatedConnection p).objects p).connId u) :=
    hunbound.congr rfl rfl rfl rfl fun _ => ⟨rfl, rfl⟩
  exact hlisted.setAuthenticatedUserId p u

/-- A context that leaves both indexes and gives its descriptor back. -/
theorem Indexed.close (h : Indexed t) (hreg : t.Registered p) :
    Indexed ((t.eraseIndex p).closeConnection p) := by
  obtain ⟨hp, hconn⟩ := hreg
  have hfd := (h.same p hp).mp hconn
  have hself : ((t.eraseIndex p).closeConnection p).objects p = { t.objects p with fd := -1 } :=
    Function.update_self ..
  have hother : ∀ q, q ≠ p →
      ((t.eraseIndex p).closeConnection p).objects q = t.objects q := fun q hq =>
    Function.update_of_ne hq ..
  have hid : ∀ q, (((t.eraseIndex p).closeConnection p).objects q).connId =
      (t.objects q).connId := by
    intro q
    by_cases hq : q = p
    · rw [hq, hself]
    · rw [hother q hq]
  have hconns : ∀ c q, ((t.eraseIndex p).closeConnection p).connections c = some q →
      c ≠ (t.objects p).connId ∧ t.connections c = some q := by
    intro c q hc
    by_cases hcp : c = (t.objects p).connId
    · subst hcp
      simp [closeConnection, eraseIndex] at hc
    · exact ⟨hcp, by simpa [closeConnection, eraseIndex, hcp] using hc⟩
  have hfds : ∀ f q, ((t.eraseIndex p).closeConnection p).fdToContext f = some q →
      f ≠ (t.objects p).fd ∧ t.fdToContext f = some q := by
    intro f q hf
    by_cases hfp : f = (t.objects p).fd
    · subst hfp
      simp [closeConnection, eraseIndex] at hf
    · exact ⟨hfp, by simpa [closeConnection, eraseIndex, hfp] using hf⟩
  constructor
  · intro q hq
    rw [hid]
    exact h.connId_lt q hq
  · intro q hq r hr hqr
    rw [hid, hid] at hqr
    exact h.connId_inj q hq r hr hqr
  · intro c q hc
    rw [hid]
    exact h.ofConnId c q (hconns c q hc).2
  · intro f q hf
    obtain ⟨hne, hold⟩ := hfds f q hf
    obtain ⟨hpos, hq, hqf⟩ := h.ofFd f q hold
    have hqp : q ≠ p := fun heq => hne (by rw [← hqf, heq])
    rw [hother q hqp]
    exact ⟨hpos, hq, hqf⟩
  · intro q hq
    by_cases hqp : q = p
    · -- the closed context is in neither
      subst hqp
      constructor
      · intro hc
        exact absurd (hid q) (hconns _ q hc).1
      · intro hf
        have hpos := (h.ofFd _ q (hfds _ q hf).2).1
        rw [hself] at hpos
        cases hpos
    · have hidne : (t.objects q).connId ≠ (t.objects p).connId := fun heq =>
        hqp (h.connId_inj q hq p hp heq)
      have hfdne : t.fdToContext (t.objects q).fd = some q →
          (t.objects q).fd ≠ (t.objects p).fd := by
        intro hqf heq
        rw [heq, hfd] at hqf
        exact hqp (Option.some.inj hqf).symm
      rw [hother q hqp]
      constructor
      · intro hc
        have hqf := (h.same q hq).mp (hconns _ q hc).2
        show Function.update t.fdToContext _ _ _ = _
        rw [Function.update_of_ne (hfdne hqf), hqf]
      · intro hf
        have hqc := (h.same q hq).mpr (hfds _ q hf).2
        show Function.update t.connections _ _ _ = _
        rw [Function.update_of_ne hidne, hqc]

/-! ## The authenticated connections -/

/-- The connection is registered and authenticated as `u`. -/
def AuthenticatedAs (t : ConnectionTables) (c : ConnId) (u : UserId) : Prop :=
  ∃ p, t.connections c = some p ∧ (t.objects p).authenticatedUserId = u

/-- The lists have the connections that meet `of`, and only them; an
unauthenticated connection is on no list unless it was put there. -/
structure ListsOf (t : ConnectionTables) (of : ConnId → UserId → Prop) : Prop where
  sound : ∀ u l, t.authenticatedConnections u = some l → l ≠ [] ∧ l.Nodup ∧ ∀ c ∈ l, of c u
  complete : ∀ c u, u ≠ 0 → of c u → ∃ l, t.authenticatedConnections u = some l ∧ c ∈ l

def Listed (t : ConnectionTables) : Prop := ListsOf t t.AuthenticatedAs

theorem ListsOf.congr {of of' : ConnId → UserId → Prop} (h : ListsOf t of)
    (htable : t'.authenticatedConnections = t.authenticatedConnections)
    (hof : ∀ c u, of c u → of' c u) (hback : ∀ c u, u ≠ 0 → of' c u → of c u) :
    ListsOf t' of' := by
  constructor
  · intro u l hl
    obtain ⟨hne, hnodup, hall⟩ := h.sound u l (htable ▸ hl)
    exact ⟨hne, hnodup, fun c hc => hof c u (hall c hc)⟩
  · intro c u hu hc
    rw [htable]
    exact h.complete c u hu (hback c u hu hc)

theorem without_eq_some {c : ConnId} {o : Option (List ConnId)} {l : List ConnId}
    (h : without c o = some l) : l ≠ [] ∧ ∃ conns, o = some conns ∧ l = conns.filter (· ≠ c) := by
  cases o with
  | none => cases h
  | some conns =>
    simp only [without, List.isEmpty_iff] at h
    split at h
    · cases h
    · rename_i hne
      obtain rfl := Option.some.inj h
      exact ⟨hne, conns, rfl, rfl⟩

theorem exists_without {c c' : ConnId} {conns : List ConnId} (hmem : c' ∈ conns) (hne : c' ≠ c) :
    ∃ l, without c (some conns) = some l ∧ c' ∈ l := by
  have hkept : c' ∈ conns.filter (· ≠ c) := List.mem_filter.mpr ⟨hmem, decide_eq_true hne⟩
  refine ⟨_, ?_, hkept⟩
  simp only [without, List.isEmpty_iff]
  exact if_neg (List.ne_nil_of_mem hkept)

/-- Without its own entry, the lists are those of the other connections. -/
theorem Listed.dropAuthenticated (h : Listed t) (hreg : t.Registered p) :
    ListsOf (t.dropAuthenticated p) fun c u =>
      c ≠ (t.objects p).connId ∧ t.AuthenticatedAs c u := by
  constructor
  · intro u l hl
    by_cases hu : u = (t.objects p).authenticatedUserId
    · subst hu
      replace hl : Function.update t.authenticatedConnections _ _ _ = _ := hl
      rw [Function.update_self] at hl
      obtain ⟨hne, conns, hconns, rfl⟩ := without_eq_some hl
      obtain ⟨-, hnodup, hall⟩ := h.sound _ conns hconns
      refine ⟨hne, hnodup.filter _, fun c hc => ?_⟩
      obtain ⟨hmem, hcne⟩ := List.mem_filter.mp hc
      exact ⟨of_decide_eq_true hcne, hall c hmem⟩
    · obtain ⟨hne, hnodup, hall⟩ := h.sound u l ((Function.update_of_ne hu _ _).symm.trans hl)
      refine ⟨hne, hnodup, fun c hc => ⟨fun heq => hu ?_, hall c hc⟩⟩
      -- the context is on no list but that of its own user
      obtain ⟨q, hq, rfl⟩ := hall c hc
      rw [heq, hreg.2] at hq
      rw [Option.some.inj hq]
  · rintro c u hu0 ⟨hcne, hc⟩
    obtain ⟨l, hl, hmem⟩ := h.complete c u hu0 hc
    by_cases hu : u = (t.objects p).authenticatedUserId
    · subst hu
      obtain ⟨rest, hrest, hkept⟩ := exists_without hmem hcne
      refine ⟨rest, ?_, hkept⟩
      show Function.update t.authenticatedConnections _ _ _ = _
      rw [Function.update_self, hl, hrest]
    · exact ⟨l, (Function.update_of_ne hu _ _).trans hl, hmem⟩

/-- After `closeClientFd` the context's connection is gone. -/
theorem Listed.close (h : Listed t) (hreg : t.Registered p) :
    Listed (((t.eraseIndex p).dropAuthenticated p).closeConnection p) := by
  have hobjects : ∀ q, ((((t.eraseIndex p).dropAuthenticated p).closeConnection p).objects
      q).authenticatedUserId = (t.objects q).authenticatedUserId := by
    intro q
    show (Function.update t.objects p { t.objects p with fd := -1 } q).authenticatedUserId = _
    by_cases hq : q = p
    · subst hq
      rw [Function.update_self]
    · rw [Function.update_of_ne hq]
  refine (h.dropAuthenticated hreg).congr rfl ?_ ?_
  · rintro c u ⟨hne, q, hq, hu⟩
    exact ⟨q, (Function.update_of_ne hne _ _).trans hq, (hobjects q).trans hu⟩
  · rintro c u - ⟨q, hq, hu⟩
    by_cases hc : c = (t.objects p).connId
    · subst hc
      cases (Function.update_self _ _ _).symm.trans hq
    · exact ⟨hc, q, (Function.update_of_ne hc _ _).symm.trans hq, (hobjects q).symm.trans hu⟩

/-- Authentication of a registered context, seen through the tables. -/
theorem authenticatedAs_setAuthenticatedUserId (hindex : Indexed t) (hreg : t.Registered p)
    (c : ConnId) (v : UserId) :
    (t.setAuthenticatedUserId p u).AuthenticatedAs c v ↔
      c = (t.objects p).connId ∧ v = u ∨ c ≠ (t.objects p).connId ∧ t.AuthenticatedAs c v := by
  have hself : ((t.setAuthenticatedUserId p u).objects p).authenticatedUserId = u := by
    simp [ConnectionTables.setAuthenticatedUserId]
  have hother : ∀ q, q ≠ p → ((t.setAuthenticatedUserId p u).objects q) = t.objects q := fun q hq =>
    Function.update_of_ne hq ..
  constructor
  · rintro ⟨q, hq, hv⟩
    obtain ⟨-, hid⟩ := hindex.ofConnId c q hq
    by_cases hqp : q = p
    · subst hqp
      exact .inl ⟨hid.symm, hv.symm.trans hself⟩
    · refine .inr ⟨fun hc => hqp ?_, q, hq, by rw [← hother q hqp]; exact hv⟩
      have hq' : t.connections c = some q := hq
      rw [hc, hreg.2] at hq'
      exact (Option.some.inj hq').symm
  · rintro (⟨rfl, rfl⟩ | ⟨hne, q, hq, hv⟩)
    · exact ⟨p, hreg.2, hself⟩
    · have hqp : q ≠ p := fun heq => hne (by rw [← heq, (hindex.ofConnId c q hq).2])
      exact ⟨q, hq, by rw [hother q hqp]; exact hv⟩

/-- Only the authentication of the context itself changes when its entry was
taken out and its user set. -/
theorem authenticatedAs_reassign (hindex : Indexed t) (hreg : t.Registered p) (u : UserId)
    (c : ConnId) (v : UserId) :
    ((t.dropAuthenticated p).setAuthenticatedUserId p u).AuthenticatedAs c v ↔
      c = (t.objects p).connId ∧ v = u ∨ c ≠ (t.objects p).connId ∧ t.AuthenticatedAs c v :=
  authenticatedAs_setAuthenticatedUserId (hindex.dropAuthenticated p) hreg c v

theorem Listed.unbindAuthenticatedConnection (h : Listed t) (hindex : Indexed t)
    (hreg : t.Registered p) : Listed (t.unbindAuthenticatedConnection p) := by
  refine (h.dropAuthenticated hreg).congr rfl ?_ ?_
  · intro c u hc
    exact (authenticatedAs_reassign hindex hreg 0 c u).mpr (.inr hc)
  · intro c u hu hc
    rcases (authenticatedAs_reassign hindex hreg 0 c u).mp hc with ⟨-, rfl⟩ | hc
    · exact absurd rfl hu
    · exact hc

/-- A connection that was on no list is put on one. -/
theorem ListsOf.listConnection {of : ConnId → UserId → Prop} (h : ListsOf t of)
    (hnew : ∀ v, ¬ of c v) :
    ListsOf (t.listConnection c u) fun c' v => c' = c ∧ v = u ∨ of c' v := by
  have hfree : c ∉ (t.authenticatedConnections u).getD [] := by
    cases hl : t.authenticatedConnections u with
    | none => exact List.not_mem_nil
    | some l => exact fun hc => hnew u ((h.sound u l hl).2.2 c hc)
  have hself : (t.listConnection c u).authenticatedConnections u =
      some ((t.authenticatedConnections u).getD [] ++ [c]) := by
    show Function.update t.authenticatedConnections _ _ _ = _
    rw [Function.update_self, if_neg hfree]
  have hother : ∀ v, v ≠ u → (t.listConnection c u).authenticatedConnections v =
      t.authenticatedConnections v := fun v hv => Function.update_of_ne hv ..
  constructor
  · intro v l hl
    by_cases hv : v = u
    · subst hv
      obtain rfl := Option.some.inj (hself.symm.trans hl)
      have hold : ((t.authenticatedConnections v).getD []).Nodup ∧
          ∀ c' ∈ (t.authenticatedConnections v).getD [], of c' v := by
        cases hl : t.authenticatedConnections v with
        | none => exact ⟨.nil, fun _ hc => nomatch hc⟩
        | some l => exact (h.sound v l hl).2
      refine ⟨by simp, ?_, fun c' hc' => ?_⟩
      · exact List.nodup_append.mpr ⟨hold.1, List.nodup_singleton c, fun a ha b hb hab =>
          hfree (List.mem_singleton.mp hb ▸ hab ▸ ha)⟩
      · rcases List.mem_append.mp hc' with hmem | hmem
        · exact .inr (hold.2 c' hmem)
        · exact .inl ⟨List.mem_singleton.mp hmem, rfl⟩
    · obtain ⟨hne, hnodup, hall⟩ := h.sound v l ((hother v hv).symm.trans hl)
      exact ⟨hne, hnodup, fun c' hc' => .inr (hall c' hc')⟩
  · rintro c' v hv0 (⟨rfl, rfl⟩ | hc')
    · exact ⟨_, hself, List.mem_append_right _ (List.mem_singleton_self _)⟩
    · obtain ⟨l, hl, hmem⟩ := h.complete c' v hv0 hc'
      by_cases hv : v = u
      · subst hv
        refine ⟨_, hself, List.mem_append_left _ ?_⟩
        rw [hl]
        exact hmem
      · exact ⟨l, (hother v hv).trans hl, hmem⟩

theorem Listed.bindAuthenticatedConnection (h : Listed t) (hindex : Indexed t)
    (hreg : t.Registered p) : Listed (t.bindAuthenticatedConnection p u) := by
  have hid : ((t.unbindAuthenticatedConnection p).objects p).connId = (t.objects p).connId := by
    show (Function.update t.objects p _ p).connId = _
    rw [Function.update_self]
    rfl
  have hlists := (h.dropAuthenticated hreg).listConnection (u := u)
    (c := (t.objects p).connId) fun _ hc => hc.1 rfl
  -- the user of the context is set last; the entry in between was its old one
  have hof : ∀ c v, (t.bindAuthenticatedConnection p u).AuthenticatedAs c v ↔
      c = (t.objects p).connId ∧ v = u ∨ c ≠ (t.objects p).connId ∧ t.AuthenticatedAs c v := by
    intro c v
    have hset : (t.bindAuthenticatedConnection p u).objects =
        ((t.dropAuthenticated p).setAuthenticatedUserId p u).objects := by
      show Function.update (Function.update t.objects p _) p
        { Function.update t.objects p _ p with authenticatedUserId := u } = _
      rw [Function.update_idem, Function.update_self]
      rfl
    rw [← authenticatedAs_reassign hindex hreg u c v]
    unfold AuthenticatedAs
    rw [hset]
    rfl
  refine hlists.congr ?_ (fun c v => (hof c v).mpr) fun c v _ => (hof c v).mp
  show Function.update _ _ _ = Function.update _ _ _
  rw [hid]
  rfl

theorem Listed.registerConnection (h : Listed t) (hindex : Indexed t) :
    Listed (t.registerConnection fd) := by
  have hold : ∀ p, p < t.allocated →
      (t.registerConnection fd).objects p = t.objects p := fun p hp =>
    Function.update_of_ne (Nat.ne_of_lt hp) _ _
  have hnext := hindex.next_free
  refine ListsOf.congr h rfl ?_ ?_
  · rintro c v ⟨p, hp, hv⟩
    have hc : c ≠ t.nextConnId := fun heq => by
      rw [heq, hnext] at hp
      cases hp
    refine ⟨p, (Function.update_of_ne hc _ _).trans hp, ?_⟩
    rw [hold p (hindex.ofConnId c p hp).1]
    exact hv
  · rintro c v hv0 ⟨p, hp, hv⟩
    by_cases hc : c = t.nextConnId
    · -- the new connection is not authenticated
      subst hc
      obtain rfl : t.allocated = p := by
        simpa [ConnectionTables.registerConnection] using hp
      refine absurd (hv.symm.trans ?_) hv0
      show (Function.update t.objects _ _ _).authenticatedUserId = 0
      rw [Function.update_self]
    · have hp' : t.connections c = some p := (Function.update_of_ne hc _ _).symm.trans hp
      refine ⟨p, hp', ?_⟩
      rw [← hold p (hindex.ofConnId c p hp').1]
      exact hv

/-! ## Whole runs -/

theorem closeClientFd_cases (hindex : Indexed t) (fd : Fd) :
    t.closeClientFd fd = t ∨ ∃ p, t.fdToContext fd = some p ∧ t.Registered p ∧
      t.closeClientFd fd = ((t.eraseIndex p).dropAuthenticated p).closeConnection p := by
  cases hp : t.fdToContext fd with
  | none => exact .inl (by rw [closeClientFd, hp])
  | some p =>
    obtain ⟨-, halloc, hfd⟩ := hindex.ofFd fd p hp
    have hconn := (hindex.same p halloc).mpr (hfd ▸ hp)
    refine .inr ⟨p, rfl, ⟨halloc, hconn⟩, ?_⟩
    simp only [closeClientFd, hp, unregisterConnection, if_pos hconn]

theorem Indexed.step {l : TableLabel} (h : Indexed t) (hstep : t.step l = some t') :
    Indexed t' := by
  cases l with
  | registerConnection fd =>
    obtain ⟨hfresh, ⟨⟩⟩ := Option.ite_none_right_eq_some.mp hstep
    exact h.registerConnection hfresh
  | closeClientFd fd =>
    obtain rfl := Option.some.inj hstep
    rcases closeClientFd_cases h fd with hsame | ⟨p, -, hreg, hclose⟩
    · rw [hsame]
      exact h
    · rw [hclose]
      exact (h.close hreg).congr rfl rfl rfl rfl fun _ => ⟨rfl, rfl⟩
  | bindAuthenticatedConnection p u =>
    obtain ⟨-, ⟨⟩⟩ := Option.ite_none_right_eq_some.mp hstep
    exact h.bindAuthenticatedConnection p u
  | unbindAuthenticatedConnection p =>
    obtain ⟨-, ⟨⟩⟩ := Option.ite_none_right_eq_some.mp hstep
    exact (h.dropAuthenticated p).setAuthenticatedUserId p 0

/-- Only `registerConnection` adds a connection. -/
theorem step_connections {l : TableLabel} (h : Indexed t) (hstep : t.step l = some t') :
    (∃ fd, l = .registerConnection fd ∧ t' = t.registerConnection fd) ∨
      (∀ fd, l ≠ .registerConnection fd) ∧ t'.nextConnId = t.nextConnId ∧
        ∀ c, (t'.connections c).isSome = true → (t.connections c).isSome = true := by
  cases l with
  | registerConnection fd =>
    obtain ⟨-, ⟨⟩⟩ := Option.ite_none_right_eq_some.mp hstep
    exact .inl ⟨fd, rfl, rfl⟩
  | closeClientFd fd =>
    obtain rfl := Option.some.inj hstep
    refine .inr ⟨nofun, ?_⟩
    rcases closeClientFd_cases h fd with hsame | ⟨p, -, -, hclose⟩
    · rw [hsame]
      exact ⟨rfl, fun _ hc => hc⟩
    · rw [hclose]
      refine ⟨rfl, fun c hc => ?_⟩
      replace hc : (Function.update t.connections _ none c).isSome = true := hc
      rw [Function.update_apply] at hc
      split at hc
      · cases hc
      · exact hc
  | bindAuthenticatedConnection p u | unbindAuthenticatedConnection p =>
    obtain ⟨-, ⟨⟩⟩ := Option.ite_none_right_eq_some.mp hstep
    exact .inr ⟨nofun, rfl, fun _ hc => hc⟩

theorem inductive_coherent : lts.Inductive (fun _ _ => True)
    fun t => Indexed t ∧ Listed t where
  init t ht := by
    subst ht
    refine ⟨⟨?_, ?_, ?_, ?_, ?_⟩, ⟨?_, ?_⟩⟩
    · exact fun p hp => absurd hp (Nat.not_lt_zero p)
    · exact fun p hp => absurd hp (Nat.not_lt_zero p)
    · exact fun _ _ hc => nomatch hc
    · exact fun _ _ hf => nomatch hf
    · exact fun p hp => absurd hp (Nat.not_lt_zero p)
    · exact fun _ _ hl => nomatch hl
    · rintro c u - ⟨p, hp, -⟩
      cases hp
  step t l t' h _ hstep := by
    obtain ⟨hindex, hlisted⟩ := h
    refine ⟨hindex.step hstep, ?_⟩
    cases l with
    | registerConnection fd =>
      obtain ⟨-, ⟨⟩⟩ := Option.ite_none_right_eq_some.mp hstep
      exact hlisted.registerConnection hindex
    | closeClientFd fd =>
      obtain rfl := Option.some.inj hstep
      rcases closeClientFd_cases hindex fd with hsame | ⟨p, -, hreg, hclose⟩
      · rw [hsame]
        exact hlisted
      · rw [hclose]
        exact hlisted.close hreg
    | bindAuthenticatedConnection p u =>
      obtain ⟨hreg, ⟨⟩⟩ := Option.ite_none_right_eq_some.mp hstep
      exact hlisted.bindAuthenticatedConnection hindex hreg
    | unbindAuthenticatedConnection p =>
      obtain ⟨hreg, ⟨⟩⟩ := Option.ite_none_right_eq_some.mp hstep
      exact hlisted.unbindAuthenticatedConnection hindex hreg

/-- After any sequence of operations, `connections_` and `fd_to_context_` hold
the same contexts, each under its own number and descriptor, numbers never
repeat, and `authenticated_connections_` lists for every user exactly the
registered connections authenticated as that user. -/
theorem tables_coherent (hs : lts.Reachable t) :
    (∀ c p, t.connections c = some p → p < t.allocated ∧ (t.objects p).connId = c) ∧
    (∀ fd p, t.fdToContext fd = some p → p < t.allocated ∧ (t.objects p).fd = fd) ∧
    (∀ p < t.allocated,
      t.connections (t.objects p).connId = some p ↔ t.fdToContext (t.objects p).fd = some p) ∧
    (∀ p < t.allocated, ∀ q < t.allocated,
      (t.objects p).connId = (t.objects q).connId → p = q) ∧
    (∀ u l, t.authenticatedConnections u = some l →
      l ≠ [] ∧ l.Nodup ∧ ∀ c ∈ l, t.AuthenticatedAs c u) ∧
    (∀ u, 0 < u → ∀ c, t.AuthenticatedAs c u ↔
      ∃ l, t.authenticatedConnections u = some l ∧ c ∈ l) := by
  obtain ⟨hindex, hlisted⟩ := inductive_coherent.invariant hs
  refine ⟨hindex.ofConnId, fun fd p hp => (hindex.ofFd fd p hp).2, hindex.same,
    hindex.connId_inj, hlisted.sound, fun u hu c => ⟨hlisted.complete c u (Int.ne_of_gt hu), ?_⟩⟩
  rintro ⟨l, hl, hc⟩
  exact (hlisted.sound u l hl).2.2 c hc

/-- Two connections of user 7; the first is bound twice and closed, and its
descriptor is used again. -/
def sharedUser : List TableLabel :=
  [.registerConnection 5, .registerConnection 6, .bindAuthenticatedConnection 0 3,
    .bindAuthenticatedConnection 0 7, .bindAuthenticatedConnection 1 7, .closeClientFd 5,
    .registerConnection 5]

theorem tables_coherent_sharedUser :
    ∃ t, lts.Reachable t ∧ t.authenticatedConnections 7 = some [2] ∧
      t.authenticatedConnections 3 = none ∧ t.fdToContext 5 = some 2 ∧
      ∀ c, t.AuthenticatedAs c 7 ↔ c = 2 := by
  obtain ⟨t, hs, h⟩ := Base.Lts.exists_reach_of_run (M := lts) (s := {})
    (fun t => decide (t.authenticatedConnections 7 = some [2] ∧
      t.authenticatedConnections 3 = none ∧ t.fdToContext 5 = some 2))
    sharedUser rfl Base.Lts.runOk_true (by decide +kernel)
  obtain ⟨hlist, hnone, hfd⟩ := of_decide_eq_true h
  refine ⟨t, hs, hlist, hnone, hfd, fun c => ?_⟩
  rw [(tables_coherent hs).2.2.2.2.2 7 (by decide) c, hlist]
  simp

end ConnectionTables
end ChatServer.Net
