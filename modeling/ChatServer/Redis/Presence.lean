import ChatServer.Base.Lts
import ChatServer.Redis.Refine

/-!
# Tokens and presence over whole runs

Servers that share one Redis issue the commands of `RedisSessionStore` in any
order while time passes. Two invariants of the registry carry the guarantees:
a live token is the current token of its user, with the same deadline
(`OneToken`); a user is on a seat exactly when the seat has that user
(`Mirror`), and what a seat holds was bound there last (`Bound`).
-/

namespace ChatServer.Redis

open Base HashStore

/-- Redis, the clock, and the session last bound to each connection. -/
structure World where
  now : Nat
  hashes : Hashes
  bound : Seat → Option ConnectionSession

inductive Event where
  /-- a method call of the server with this configuration -/
  | command (cfg : RedisConfig) (c : Command)
  | tick (seconds : Nat)

/-- Whether `Bind` passes its guard. -/
def bindSent (conn : ConnId) (session : ConnectionSession) (issuedAt : Timestamp) : Bool :=
  conn ≠ 0 ∧ 0 ≤ issuedAt ∧ isValidSession session

/-- The session a command binds. -/
def Command.binds (cfg : RedisConfig) (bound : Seat → Option ConnectionSession) :
    Command → Seat → Option ConnectionSession
  | .bind conn session issuedAt =>
    if bindSent conn session issuedAt then
      Function.update bound (cfg.serverId, conn) (some session)
    else bound
  | _ => bound

def World.step (p : Bytes) (w : World) : Event → Option World
  | .command cfg c =>
    if cfg.keyPrefix = p then
      some { w with hashes := c.run cfg w.now w.hashes, bound := c.binds cfg w.bound }
    else none
  | .tick seconds =>
    some { w with now := w.now + seconds, hashes := w.hashes.purge (w.now + seconds) }

/-- Servers with one key prefix over a Redis that starts empty. -/
def lts (p : Bytes) : Lts World Event where
  Init w := (w.hashes = fun _ => none) ∧ w.bound = fun _ => none
  step := World.step p

/-- `Refresh`, `ClearPresence` and `RevokeSession` pass the session last bound to
the connection, as `UserService` does. -/
def PassesBound (w : World) : Event → Prop
  | .command cfg (.refresh conn session) | .command cfg (.clearPresence conn session)
  | .command cfg (.revokeSession conn session) => w.bound (cfg.serverId, conn) = some session
  | _ => True

namespace Registry

/-- A live token is the current one of its user and expires with that entry. -/
def OneToken (r : Registry) : Prop :=
  ∀ t info d, r.tokens t = some (info, d) → r.current info.userId = some (t, d)

/-- The two presence indexes agree. -/
def Mirror (r : Registry) : Prop :=
  ∀ u c t d, r.presence u = some ((c, t), d) ↔ r.seats c = some ((u, t), d)

/-- A seat holds what was bound to it last. -/
def Bound (r : Registry) (bound : Seat → Option ConnectionSession) : Prop :=
  ∀ c u t d, r.seats c = some ((u, t), d) →
    ∃ session, bound c = some session ∧ session.userId = u ∧ session.token = t

end Registry

variable {p : Bytes} {r : Registry} {now : Nat}

/-! ## One token per user -/

theorem Registry.OneToken.setToken_none (h : r.OneToken) (t : Bytes) : (r.setToken t none).OneToken := by
  intro t' info d ht'
  by_cases heq : t' = t
  · subst heq
    simp at ht'
  · rw [Registry.tokens_setToken, Function.update_of_ne heq] at ht'
    exact h t' info d ht'

/-- Presence entries play no part. -/
theorem Registry.OneToken.of_eq {r' : Registry} (h : r.OneToken) (htokens : r'.tokens = r.tokens)
    (hcurrent : r'.current = r.current) : r'.OneToken := by
  intro t info d ht
  rw [htokens] at ht
  rw [hcurrent]
  exact h t info d ht

theorem clear_tokens (r : Registry) (c : Seat) (t : Bytes) (u : UserId) :
    (r.clear c t u).tokens = r.tokens ∧ (r.clear c t u).current = r.current := by
  unfold Registry.clear
  dsimp only
  split <;> exact ⟨rfl, rfl⟩

theorem refresh_tokens (r : Registry) (now ttl : Nat) (c : Seat) (t : Bytes) (u : UserId) :
    (r.refresh now ttl c t u).tokens = r.tokens ∧
      (r.refresh now ttl c t u).current = r.current := by
  unfold Registry.refresh
  split <;> exact ⟨rfl, rfl⟩

theorem leave_evict_tokens (r : Registry) (u : UserId) (c : Seat) :
    ((r.leaveSeat u).evict c).tokens = r.tokens ∧
      ((r.leaveSeat u).evict c).current = r.current := by
  have hleave : (r.leaveSeat u).tokens = r.tokens ∧ (r.leaveSeat u).current = r.current := by
    unfold Registry.leaveSeat
    split <;> exact ⟨rfl, rfl⟩
  rw [← hleave.1, ← hleave.2]
  unfold Registry.evict
  split
  · split <;> exact ⟨rfl, rfl⟩
  · exact ⟨rfl, rfl⟩

variable {t t' : Bytes} {cfg : RedisConfig} {c : Command} {x : TokenInfo × Nat}

/-- Displacing the old token leaves the user with at most the new one. -/
theorem Registry.OneToken.displace (h : r.OneToken) {u : UserId} {info : TokenInfo} {d : Nat}
    (ht' : (r.displaceToken u t).tokens t' = some (info, d)) (hne : t' ≠ t) :
    r.tokens t' = some (info, d) ∧ info.userId ≠ u := by
  unfold Registry.displaceToken at ht'
  split at ht'
  · rename_i old d' hold
    split at ht'
    · by_cases heq : t' = old
      · subst heq
        simp at ht'
      · rw [Registry.tokens_setToken, Function.update_of_ne heq] at ht'
        refine ⟨ht', fun hu => heq ?_⟩
        have := h t' info d ht'
        rw [hu, hold] at this
        simp_all
    · rename_i hsame
      refine ⟨ht', fun hu => hne ?_⟩
      have := h t' info d ht'
      rw [hu, hold] at this
      simp_all
  · rename_i hnone
    refine ⟨ht', fun hu => ?_⟩
    have := h t' info d ht'
    rw [hu, hnone] at this
    cases this

theorem displaceToken_current (r : Registry) (u : UserId) (t : Bytes) :
    (r.displaceToken u t).current = r.current := by
  unfold Registry.displaceToken
  split
  · split <;> rfl
  · rfl

theorem Registry.OneToken.bind (h : r.OneToken) (sessionTtl presenceTtl : Nat) (c : Seat) (t : Bytes)
    (info : TokenInfo) : (r.bind now sessionTtl presenceTtl c t info).OneToken := by
  obtain ⟨htokens, hcurrent⟩ := leave_evict_tokens (r.displaceToken info.userId t) info.userId c
  intro t' info' d ht'
  change Function.update (((r.displaceToken info.userId t).leaveSeat info.userId).evict c).tokens
    t _ t' = _ at ht'
  show Function.update (((r.displaceToken info.userId t).leaveSeat info.userId).evict c).current
    info.userId _ info'.userId = _
  rw [htokens] at ht'
  rw [hcurrent, displaceToken_current]
  by_cases heq : t' = t
  · -- the new token and the user's current entry get the same deadline
    subst heq
    rw [Function.update_self] at ht'
    unfold lasting at ht' ⊢
    split at ht'
    · cases ht'
    · rename_i httl
      simp only [Option.some.injEq, Prod.mk.injEq] at ht'
      obtain ⟨rfl, rfl⟩ := ht'
      rw [Function.update_self, if_neg httl]
  · rw [Function.update_of_ne heq] at ht'
    obtain ⟨hold, hne⟩ := h.displace ht' heq
    rw [Function.update_of_ne hne]
    exact h t' info' d hold

theorem Registry.OneToken.revoke (h : r.OneToken) (c : Seat) (t : Bytes) (u : UserId) :
    (r.revoke c t u).OneToken := by
  have hdropped := h.setToken_none t
  unfold Registry.revoke
  dsimp only
  split
  · rename_i hcur
    refine Registry.OneToken.of_eq ?_ (clear_tokens _ c t u).1 (clear_tokens _ c t u).2
    intro t' info d ht'
    change (r.setToken t none).tokens t' = some (info, d) at ht'
    have hthis := hdropped t' info d ht'
    rw [Registry.current_setCurrent, Function.update_of_ne]
    · exact hthis
    · rintro rfl
      -- the user's current token is the revoked one, which is no longer live
      rw [hthis] at hcur
      obtain rfl : t' = t := by simpa using hcur
      simp at ht'
  · exact hdropped.of_eq (clear_tokens _ c t u).1 (clear_tokens _ c t u).2

theorem Registry.OneToken.purge (h : r.OneToken) (now : Nat) : (r.purge now).OneToken := by
  intro t info d ht
  obtain ⟨hold, hd⟩ := Option.filter_eq_some_iff.mp ht
  exact Option.filter_eq_some_iff.mpr ⟨h t info d hold, hd⟩

/-- A command leaves the registry alone or is one of five operations on it. -/
theorem Command.apply_of {P : Registry → Prop} (hsame : P r)
    (hbind : ∀ conn session issuedAt, c = .bind conn session issuedAt →
      P (r.bind now cfg.sessionTtlSeconds cfg.presenceTtlSeconds (cfg.serverId, conn) session.token
        ⟨session.userId, session.username, issuedAt⟩))
    (hrefresh : ∀ ttl seat token user, P (r.refresh now ttl seat token user))
    (hclear : ∀ seat token user, P (r.clear seat token user))
    (hrevoke : ∀ seat token user, P (r.revoke seat token user))
    (hdrop : ∀ token, P (r.setToken token none)) : P (c.apply cfg now r) := by
  cases c with
  | bind conn session issuedAt =>
    exact iteInduction (motive := P) (fun _ => hsame) fun _ => hbind conn session issuedAt rfl
  | refresh conn session =>
    exact iteInduction (motive := P) (fun _ => hsame) fun _ => hrefresh _ _ _ _
  | clearPresence conn session =>
    exact iteInduction (motive := P) (fun _ => hsame) fun _ => hclear _ _ _
  | revokeSession conn session =>
    exact iteInduction (motive := P) (fun _ => hsame) fun _ => hrevoke _ _ _
  | revokeToken token =>
    exact iteInduction (motive := P) (fun _ => hsame) fun _ => hdrop token

theorem Registry.OneToken.apply (h : r.OneToken) (cfg : RedisConfig) (c : Command) :
    (c.apply cfg now r).OneToken :=
  Command.apply_of h (fun _ _ _ _ => h.bind _ _ _ _ _)
    (fun _ _ _ _ => h.of_eq (refresh_tokens r _ _ _ _ _).1 (refresh_tokens r _ _ _ _ _).2)
    (fun _ _ _ => h.of_eq (clear_tokens r _ _ _).1 (clear_tokens r _ _ _).2)
    (fun _ _ _ => h.revoke _ _ _) fun token => h.setToken_none token

/-! ## Where a token comes from -/

theorem tokens_bind_ne (r : Registry) (sessionTtl presenceTtl : Nat) (c : Seat) (info : TokenInfo)
    (hne : t' ≠ t) :
    (r.bind now sessionTtl presenceTtl c t info).tokens t' =
      (r.displaceToken info.userId t).tokens t' := by
  show Function.update (((r.displaceToken info.userId t).leaveSeat info.userId).evict c).tokens
    t _ t' = _
  rw [Function.update_of_ne hne, (leave_evict_tokens _ _ _).1]

theorem tokens_of_drop (h : (r.setToken t' none).tokens t = some x) : r.tokens t = some x := by
  rw [Registry.tokens_setToken, Function.update_apply] at h
  split at h
  · cases h
  · exact h

theorem tokens_of_displace {u : UserId} (h : (r.displaceToken u t').tokens t = some x) :
    r.tokens t = some x := by
  unfold Registry.displaceToken at h
  split at h
  · split at h
    · exact tokens_of_drop h
    · exact h
  · exact h

/-- A token that is there after a command was there before, or the command binds it. -/
theorem tokens_of_apply (h : (c.apply cfg now r).tokens t = some x) :
    r.tokens t = some x ∨ ∃ conn session issuedAt, c = .bind conn session issuedAt ∧
      session.token = t ∧ x.1.userId = session.userId := by
  revert h
  refine Command.apply_of (P := fun r' => r'.tokens t = some x → _) .inl ?_ ?_ ?_ ?_ ?_
  · intro conn session issuedAt hc h
    by_cases heq : t = session.token
    · subst heq
      refine .inr ⟨conn, session, issuedAt, hc, rfl, ?_⟩
      change Function.update _ session.token _ session.token = _ at h
      rw [Function.update_self] at h
      unfold lasting at h
      split at h
      · cases h
      · rw [← Option.some.inj h]
    · rw [tokens_bind_ne _ _ _ _ _ heq] at h
      exact .inl (tokens_of_displace h)
  · intro ttl seat token user h
    rw [(refresh_tokens r _ _ _ _ _).1] at h
    exact .inl h
  · intro seat token user h
    rw [(clear_tokens r _ _ _).1] at h
    exact .inl h
  · intro seat token user h
    unfold Registry.revoke at h
    dsimp only at h
    rw [(clear_tokens _ _ _ _).1] at h
    have hdrop : (r.setToken token none).tokens t = some x := by
      split at h <;> exact h
    exact .inl (tokens_of_drop hdrop)
  · intro token h
    exact .inl (tokens_of_drop h)

/-! ## The presence indexes -/

namespace Registry

theorem seats_leaveSeat (h : r.Mirror) (u : UserId) (c : Seat) (x : (UserId × Bytes) × Nat) :
    (r.leaveSeat u).seats c = some x ↔ r.seats c = some x ∧ x.1.1 ≠ u := by
  unfold leaveSeat
  split
  · rename_i c₀ t₀ d₀ hu
    by_cases hc : c = c₀
    · subst hc
      simp only [seats_setSeat, Function.update_self, reduceCtorEq, false_iff, not_and, not_not]
      intro hx
      rw [(h u c t₀ d₀).mp hu, Option.some.injEq] at hx
      rw [← hx]
    · rw [seats_setSeat, Function.update_of_ne hc]
      refine ⟨fun hx => ⟨hx, fun he => hc ?_⟩, fun hx => hx.1⟩
      -- a second seat of the user would be the user's presence too
      obtain ⟨⟨u', t'⟩, d'⟩ := x
      subst he
      have hpres := (h u' c t' d').mpr hx
      rw [hu, Option.some.injEq, Prod.mk.injEq, Prod.mk.injEq] at hpres
      exact hpres.1.1.symm
  · rename_i hu
    refine ⟨fun hx => ⟨hx, fun he => ?_⟩, fun hx => hx.1⟩
    obtain ⟨⟨u', t'⟩, d'⟩ := x
    subst he
    have hpres := (h u' c t' d').mpr hx
    rw [hu] at hpres
    cases hpres

theorem presence_leaveSeat (r : Registry) (u : UserId) : (r.leaveSeat u).presence = r.presence := by
  unfold leaveSeat
  split <;> rfl

theorem seats_evict (r : Registry) (c : Seat) : (r.evict c).seats = r.seats := by
  unfold evict
  split
  · split <;> rfl
  · rfl

variable {u : UserId} {bound : Seat → Option ConnectionSession}

/-- Taking a seat clears the presence of everybody else who sat there. -/
theorem presence_bind_other (h : r.Mirror) {v : UserId} (hv : v ≠ u) (c : Seat)
    (x : (Seat × Bytes) × Nat) :
    ((r.leaveSeat u).evict c).presence v = some x ↔ r.presence v = some x ∧ x.1.1 ≠ c := by
  have hseat : ∀ t d, x = ((c, t), d) → r.presence v = some x →
      (r.leaveSeat u).seats c = some ((v, t), d) := by
    rintro t d rfl hx
    exact (seats_leaveSeat h u c _).mpr ⟨(h v c t d).mp hx, hv⟩
  unfold evict
  split
  · rename_i v' t' d' hc
    obtain ⟨hc, -⟩ := (seats_leaveSeat h u c _).mp hc
    have hpres := (h v' c t' d').mpr hc
    rw [if_pos (by rw [Holds, presence_leaveSeat, hpres]; rfl)]
    rw [presence_setPresence, presence_leaveSeat]
    by_cases hvv : v = v'
    · subst hvv
      simp only [Function.update_self, reduceCtorEq, false_iff, not_and, not_not]
      intro hx
      rw [hpres, Option.some.injEq] at hx
      rw [← hx]
    · rw [Function.update_of_ne hvv]
      refine ⟨fun hx => ⟨hx, fun he => hvv ?_⟩, fun hx => hx.1⟩
      obtain ⟨⟨c', t⟩, d⟩ := x
      subst he
      rw [(h v c' t d).mp hx, Option.some.injEq, Prod.mk.injEq, Prod.mk.injEq] at hc
      exact hc.1.1
  · rename_i hc
    rw [presence_leaveSeat]
    refine ⟨fun hx => ⟨hx, fun he => ?_⟩, fun hx => hx.1⟩
    obtain ⟨⟨c', t⟩, d⟩ := x
    subst he
    rw [hseat t d rfl hx] at hc
    cases hc

theorem lasting_eq_some {α : Type} {now ttl : Nat} {f : Nat → α} {x : α}
    (h : lasting now ttl f = some x) : x = f (now + ttl) := by
  unfold lasting at h
  split at h
  · cases h
  · exact (Option.some.inj h).symm

/-- A user and a seat get each other's entry at the same time. -/
theorem Mirror.pair {c : Seat} {t : Bytes} {now ttl : Nat}
    {presence : UserId → Option ((Seat × Bytes) × Nat)}
    {seats : Seat → Option ((UserId × Bytes) × Nat)}
    (hmirror : ∀ v c' t' d, v ≠ u → c' ≠ c →
      (presence v = some ((c', t'), d) ↔ seats c' = some ((v, t'), d)))
    (huser : ∀ c' t' d, c' ≠ c → seats c' ≠ some ((u, t'), d))
    (hseat : ∀ v t' d, v ≠ u → presence v ≠ some ((c, t'), d)) (v : UserId) (c' : Seat)
    (t' : Bytes) (d : Nat) :
    Function.update presence u (lasting now ttl fun d => ((c, t), d)) v = some ((c', t'), d) ↔
      Function.update seats c (lasting now ttl fun d => ((u, t), d)) c' = some ((v, t'), d) := by
  by_cases hv : v = u <;> by_cases hc : c' = c
  · subst hv hc
    rw [Function.update_self, Function.update_self]
    unfold lasting
    split <;> simp
  · subst hv
    rw [Function.update_self, Function.update_of_ne hc]
    refine ⟨fun hx => absurd ?_ hc, fun hx => absurd hx (huser c' t' d hc)⟩
    have := lasting_eq_some hx
    simp only [Prod.mk.injEq] at this
    exact this.1.1
  · subst hc
    rw [Function.update_of_ne hv, Function.update_self]
    refine ⟨fun hx => absurd hx (hseat v t' d hv), fun hx => absurd ?_ hv⟩
    have := lasting_eq_some hx
    simp only [Prod.mk.injEq] at this
    exact this.1.1
  · rw [Function.update_of_ne hv, Function.update_of_ne hc]
    exact hmirror v c' t' d hv hc

theorem Mirror.bind (h : r.Mirror) (sessionTtl presenceTtl : Nat) (c : Seat) (t : Bytes)
    (info : TokenInfo) : (r.bind now sessionTtl presenceTtl c t info).Mirror := by
  have hd : (r.displaceToken info.userId t).Mirror := by
    unfold displaceToken
    split
    · split <;> exact h
    · exact h
  have hseats := seats_evict ((r.displaceToken info.userId t).leaveSeat info.userId) c
  refine Mirror.pair ?_ ?_ ?_
  · intro v c' t' d hv hc
    show (((r.displaceToken info.userId t).leaveSeat info.userId).evict c).presence v = _ ↔
      (((r.displaceToken info.userId t).leaveSeat info.userId).evict c).seats c' = _
    rw [presence_bind_other hd hv, hseats, seats_leaveSeat hd]
    exact ⟨fun hx => ⟨(hd v c' t' d).mp hx.1, hv⟩, fun hx => ⟨(hd v c' t' d).mpr hx.1, hc⟩⟩
  · intro c' t' d hc hx
    change (((r.displaceToken info.userId t).leaveSeat info.userId).evict c).seats c' = _ at hx
    rw [hseats] at hx
    exact ((seats_leaveSeat hd _ _ _).mp hx).2 rfl
  · intro v t' d hv hx
    exact ((presence_bind_other hd hv c _).mp hx).2 rfl

theorem Mirror.refresh (h : r.Mirror) (ttl : Nat) (c : Seat) (t : Bytes) (u : UserId) :
    (r.refresh now ttl c t u).Mirror := by
  unfold Registry.refresh
  split
  · rename_i hboth
    obtain ⟨⟨x, e⟩, hx, hxt⟩ := Option.map_eq_some_iff.mp hboth.1
    obtain rfl : x = (c, t) := hxt
    refine Mirror.pair (fun v c' t' d _ _ => h v c' t' d) ?_ ?_
    · intro c' t' d hc hs
      have hpres := (h u c' t' d).mpr hs
      rw [hx, Option.some.injEq, Prod.mk.injEq, Prod.mk.injEq] at hpres
      exact hc hpres.1.1.symm
    · intro v t' d hv hp
      have hseat := (h v c t' d).mp hp
      rw [(h u c t e).mp hx, Option.some.injEq, Prod.mk.injEq, Prod.mk.injEq] at hseat
      exact hv hseat.1.1.symm
  · exact h

theorem seats_clear (r : Registry) (c : Seat) (t : Bytes) (u : UserId) :
    (r.clear c t u).seats = Function.update r.seats c none := by
  unfold Registry.clear
  dsimp only
  split <;> rfl

theorem presence_clear (r : Registry) (c : Seat) (t : Bytes) (u : UserId) :
    (r.clear c t u).presence =
      if r.Holds c t u then Function.update r.presence u none else r.presence := by
  unfold Registry.clear
  by_cases hh : r.Holds c t u
  · rw [if_pos hh]
    dsimp only
    rw [if_pos (show (r.setSeat c none).Holds c t u from hh)]
    rfl
  · rw [if_neg hh]
    dsimp only
    rw [if_neg (show ¬ (r.setSeat c none).Holds c t u from hh)]
    rfl

/-- Clearing a seat with the session it holds clears both entries. -/
theorem Mirror.clear (h : r.Mirror) {c : Seat} {t : Bytes}
    (hseat : ∀ v t' d, r.seats c = some ((v, t'), d) → v = u ∧ t' = t) :
    (r.clear c t u).Mirror := by
  intro v c' t' d
  rw [seats_clear, presence_clear]
  by_cases hc : c' = c
  · subst hc
    rw [Function.update_self]
    refine ⟨fun hx => ?_, fun hx => by cases hx⟩
    -- an entry left on this seat would be the user's own
    by_cases hh : r.Holds c' t u
    · rw [if_pos hh] at hx
      by_cases hv : v = u
      · subst hv
        simp at hx
      · rw [Function.update_of_ne hv] at hx
        exact absurd (hseat v t' d ((h v c' t' d).mp hx)).1 hv
    · rw [if_neg hh] at hx
      obtain ⟨rfl, rfl⟩ := hseat v t' d ((h v c' t' d).mp hx)
      exact absurd (by rw [Holds, hx]; rfl) hh
  · rw [Function.update_of_ne hc]
    by_cases hh : r.Holds c t u
    · rw [if_pos hh]
      by_cases hv : v = u
      · subst hv
        obtain ⟨⟨x, e⟩, hx, hxt⟩ := Option.map_eq_some_iff.mp hh
        obtain rfl : x = (c, t) := hxt
        rw [Function.update_self]
        refine ⟨fun hy => absurd hy (by simp), fun hy => ?_⟩
        have hpres := (h v c' t' d).mpr hy
        rw [hx, Option.some.injEq, Prod.mk.injEq, Prod.mk.injEq] at hpres
        exact absurd hpres.1.1.symm hc
      · rw [Function.update_of_ne hv]
        exact h v c' t' d
    · rw [if_neg hh]
      exact h v c' t' d

theorem Mirror.purge (h : r.Mirror) (now : Nat) : (r.purge now).Mirror := by
  intro u c t d
  show (r.presence u).filter _ = _ ↔ (r.seats c).filter _ = _
  rw [Option.filter_eq_some_iff, Option.filter_eq_some_iff, h u c t d]

/-! ## What a seat holds -/

theorem Bound.mono {r' : Registry} (h : r.Bound bound)
    (hsub : ∀ c x d, r'.seats c = some (x, d) → ∃ d', r.seats c = some (x, d')) :
    r'.Bound bound := by
  intro c u t d hc
  obtain ⟨d', hc'⟩ := hsub c (u, t) d hc
  exact h c u t d' hc'

theorem Bound.clear (h : r.Bound bound) (c : Seat) (t : Bytes) (u : UserId) :
    (r.clear c t u).Bound bound := by
  refine h.mono fun c' x d hx => ?_
  rw [seats_clear] at hx
  by_cases hc : c' = c
  · subst hc
    simp at hx
  · rw [Function.update_of_ne hc] at hx
    exact ⟨d, hx⟩

theorem Bound.refresh (h : r.Bound bound) (ttl : Nat) (c : Seat) (t : Bytes) (u : UserId) :
    (r.refresh now ttl c t u).Bound bound := by
  refine h.mono fun c' x d hx => ?_
  unfold Registry.refresh at hx
  split at hx
  · rename_i hboth
    change Function.update r.seats c _ c' = _ at hx
    by_cases hc : c' = c
    · subst hc
      rw [Function.update_self] at hx
      obtain ⟨⟨y, e⟩, hy, hyt⟩ := Option.map_eq_some_iff.mp hboth.2
      obtain rfl : y = (u, t) := hyt
      exact ⟨e, by rw [hy, (Prod.mk.inj (lasting_eq_some hx)).1]⟩
    · rw [Function.update_of_ne hc] at hx
      exact ⟨d, hx⟩
  · exact ⟨d, hx⟩

theorem Bound.bind (hm : r.Mirror) (h : r.Bound bound) (sessionTtl presenceTtl : Nat) (c : Seat)
    (session : ConnectionSession) (issuedAt : Timestamp) :
    (r.bind now sessionTtl presenceTtl c session.token
      ⟨session.userId, session.username, issuedAt⟩).Bound
        (Function.update bound c (some session)) := by
  have hd : (r.displaceToken session.userId session.token).Mirror ∧
      (r.displaceToken session.userId session.token).seats = r.seats := by
    unfold displaceToken
    split
    · split <;> exact ⟨hm, rfl⟩
    · exact ⟨hm, rfl⟩
  intro c' u t d hx
  change Function.update
    (((r.displaceToken session.userId session.token).leaveSeat session.userId).evict c).seats
      c _ c' = _ at hx
  by_cases hc : c' = c
  · subst hc
    rw [Function.update_self] at hx
    have := (Prod.mk.inj (lasting_eq_some hx)).1
    simp only [Prod.mk.injEq] at this
    exact ⟨session, Function.update_self .., this.1.symm, this.2.symm⟩
  · rw [Function.update_of_ne hc, seats_evict, seats_leaveSeat hd.1, hd.2] at hx
    obtain ⟨session', hs, hrest⟩ := h c' u t d hx.1
    exact ⟨session', by rw [Function.update_of_ne hc, hs], hrest⟩

theorem Bound.purge (h : r.Bound bound) (now : Nat) : (r.purge now).Bound bound := by
  refine h.mono fun c x d hx => ⟨d, ?_⟩
  exact (Option.filter_eq_some_iff.mp hx).1

end Registry

/-! ## Commands -/

theorem bindSent_iff {conn : ConnId} {session : ConnectionSession} {issuedAt : Timestamp} :
    bindSent conn session issuedAt = true ↔
      ¬ (conn = 0 ∨ issuedAt < 0 ∨ isValidSession session = false) := by
  simp [bindSent, not_or]

/-- A command that passes the bound session keeps both indexes. -/
theorem mirror_apply {w : World} (hm : r.Mirror) (hb : r.Bound w.bound)
    (hpass : PassesBound w (.command cfg c)) :
    (c.apply cfg now r).Mirror ∧ (c.apply cfg now r).Bound (c.binds cfg w.bound) := by
  -- what a seat holds is the session the command passes
  have hheld : ∀ (conn : ConnId) (session : ConnectionSession),
      w.bound (cfg.serverId, conn) = some session → ∀ v t d,
        r.seats (cfg.serverId, conn) = some ((v, t), d) → v = session.userId ∧ t = session.token := by
    intro conn session hbound v t d hx
    obtain ⟨session', hs, hu, ht⟩ := hb _ v t d hx
    rw [hbound, Option.some.injEq] at hs
    subst hs
    exact ⟨hu.symm, ht.symm⟩
  cases c with
  | bind conn session issuedAt =>
    unfold Command.apply Command.binds
    by_cases hsent : bindSent conn session issuedAt = true
    · dsimp only
      rw [if_neg (bindSent_iff.mp hsent), if_pos hsent]
      exact ⟨hm.bind _ _ _ _ _, Registry.Bound.bind hm hb _ _ _ session issuedAt⟩
    · dsimp only
      rw [if_neg hsent, if_pos (by_contra fun h => hsent (bindSent_iff.mpr h))]
      exact ⟨hm, hb⟩
  | refresh conn session =>
    unfold Command.apply
    dsimp only
    split
    · exact ⟨hm, hb⟩
    · exact ⟨hm.refresh _ _ _ _, hb.refresh _ _ _ _⟩
  | clearPresence conn session =>
    unfold Command.apply
    dsimp only
    split
    · exact ⟨hm, hb⟩
    · exact ⟨hm.clear (hheld conn session hpass), hb.clear _ _ _⟩
  | revokeSession conn session =>
    unfold Command.apply
    dsimp only
    split
    · exact ⟨hm, hb⟩
    · unfold Registry.revoke
      dsimp only
      split
      · exact ⟨Registry.Mirror.clear (r := (r.setToken _ none).setCurrent _ none) hm
          (hheld conn session hpass), Registry.Bound.clear (r := (r.setToken _ none).setCurrent _ none)
            hb _ _ _⟩
      · exact ⟨Registry.Mirror.clear (r := r.setToken _ none) hm (hheld conn session hpass),
          Registry.Bound.clear (r := r.setToken _ none) hb _ _ _⟩
  | revokeToken token =>
    unfold Command.apply
    dsimp only
    split
    · exact ⟨hm, hb⟩
    · exact ⟨hm, hb⟩

end ChatServer.Redis
