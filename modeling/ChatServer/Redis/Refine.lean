import ChatServer.Redis.Registry

/-!
# The scripts refine the registry

Each piece of a script against the registry operation it carries out, and from
the pieces `represents_run`: a command of `RedisSessionStore` on hashes that
hold a registry leaves hashes that hold the registry after the command.
-/

namespace ChatServer.Redis

open Base HashStore

variable {p : Bytes} {s : Hashes} {r : Registry} {now : Nat}

/-! ## The pieces of `kBindScript` -/

theorem Represents.displace (h : Represents p s r) (u : UserId) (t : Bytes) :
    Represents p
      (match s.hget (userSessionKey p u) .token with
        | some old => if old ≠ t then s.del (p ++ str ":session:token:" ++ old) else s
        | none => s)
      (r.displaceToken u t) := by
  rw [h.hget_current, Registry.displaceToken]
  cases hu : r.current u with
  | none => exact h
  | some x =>
    show Represents p (if x.1 ≠ t then s.del (tokenKey p x.1) else s)
      (if x.1 ≠ t then r.setToken x.1 none else r)
    split
    · exact h.setToken x.1 none
    · exact h

/-- The presence is read before the token is displaced. -/
theorem Represents.leave {s₀ : Hashes} {r₀ : Registry} (h : Represents p s r)
    (h₀ : Represents p s₀ r₀) (u : UserId) (hsame : r.presence u = r₀.presence u) :
    Represents p
      (match s₀.hget (userPresenceKey p u) .serverId,
          s₀.hget (userPresenceKey p u) .connectionId with
        | some oldServer, some oldConn =>
          s.del (p ++ str ":presence:conn:" ++ oldServer ++ str ":" ++ oldConn)
        | _, _ => s)
      (r.leaveSeat u) := by
  obtain ⟨hserver, hconn, -⟩ := h₀.hget_presence u
  rw [hserver, hconn, Registry.leaveSeat, hsame]
  cases hu : r₀.presence u with
  | none => exact h
  | some x => exact h.setSeat x.1.1 none

theorem Represents.evict (h : Represents p s r) (c : Seat) :
    Represents p
      (match s.hget (connectionPresenceKey p c.1 c.2) .userId,
          s.hget (connectionPresenceKey p c.1 c.2) .token with
        | some oldUser, some oldToken =>
          if s.hget (p ++ str ":presence:user:" ++ oldUser) .serverId = some c.1 ∧
              s.hget (p ++ str ":presence:user:" ++ oldUser) .connectionId =
                some (natText c.2) ∧
              s.hget (p ++ str ":presence:user:" ++ oldUser) .token = some oldToken then
            s.del (p ++ str ":presence:user:" ++ oldUser)
          else s
        | _, _ => s)
      (r.evict c) := by
  obtain ⟨huser, htoken⟩ := h.hget_seat c
  rw [huser, htoken, Registry.evict]
  cases hc : r.seats c with
  | none => exact h
  | some x =>
    have hiff := h.holds_iff c x.1.2 x.1.1
    simp only [userPresenceKey] at hiff
    by_cases hh : r.Holds c x.1.2 x.1.1
    · simp only [Option.map_some, if_pos hh]
      rw [if_pos (hiff.mpr hh)]
      exact h.setPresence x.1.1 none
    · simp only [Option.map_some, if_neg hh]
      rw [if_neg fun hx => hh (hiff.mp hx)]
      exact h

theorem displaceToken_presence (r : Registry) (u : UserId) (t : Bytes) :
    (r.displaceToken u t).presence = r.presence := by
  unfold Registry.displaceToken
  split
  · split <;> rfl
  · rfl

theorem represents_bind (h : Represents p s r) (c : Seat) (t : Bytes) (info : TokenInfo)
    (sessionTtl presenceTtl : Nat) :
    Represents p
      (bindScript s now (tokenKey p t) (userPresenceKey p info.userId)
        (connectionPresenceKey p c.1 c.2) (userSessionKey p info.userId) p c.1 (natText c.2)
        (intText info.userId) info.username (intText info.issuedAt) sessionTtl t presenceTtl)
      (r.bind now sessionTtl presenceTtl c t info) := by
  have hdisplaced := h.displace info.userId t
  have hleft := hdisplaced.leave h info.userId (by rw [displaceToken_presence])
  have hevicted := hleft.evict c
  exact (((hevicted.putToken t info sessionTtl).putPresence info.userId c t presenceTtl).putSeat
    c info.userId t presenceTtl).putCurrent info.userId t sessionTtl

/-! ## The other scripts -/

/-- `EXPIRE` on a key that exists only moves its deadline. -/
theorem expire_of_some {k : Bytes} {e : Entry Field Bytes} (hk : s k = some e) (ttl : Nat) :
    s.expire k now ttl =
      Function.update s k (lasting now ttl fun d => ⟨e.fields, some d⟩) := by
  have hself : Function.update s k (some e) = s := by rw [← hk, Function.update_eq_self]
  conv => lhs; rw [← hself]
  exact expire_update now ttl

theorem represents_refresh (h : Represents p s r) (c : Seat) (t : Bytes) (u : UserId)
    (presenceTtl : Nat) :
    Represents p
      (refreshScript s now (userPresenceKey p u) (connectionPresenceKey p c.1 c.2) c.1
        (natText c.2) t (intText u) presenceTtl)
      (r.refresh now presenceTtl c t u) := by
  have hholds := h.holds_iff c t u
  have hseated := h.seated_iff c t u
  unfold refreshScript Registry.refresh
  by_cases hboth : r.Holds c t u ∧ (r.seats c).map (·.1) = some (u, t)
  · obtain ⟨h1, h2, h3⟩ := hholds.mpr hboth.1
    obtain ⟨h4, h5⟩ := hseated.mpr hboth.2
    rw [if_neg (by simp [h1, h2, h3, h4, h5]), if_pos hboth]
    obtain ⟨⟨x, d⟩, hx, hxt⟩ := Option.map_eq_some_iff.mp hboth.1
    obtain rfl : x = (c, t) := hxt
    obtain ⟨⟨y, e⟩, hy, hyt⟩ := Option.map_eq_some_iff.mp hboth.2
    obtain rfl : y = (u, t) := hyt
    have hpres : s (userPresenceKey p u) = some (presenceEntry ((c, t), d)) := by
      rw [show userPresenceKey p u = Key.text p (.presence u) from rfl, h]
      simp [Registry.entry, hx]
    have hset := h.setPresence u (lasting now presenceTtl fun d => ((c, t), d))
    rw [lasting_map] at hset
    have hset' := hset.setSeat c (lasting now presenceTtl fun d => ((u, t), d))
    rw [lasting_map] at hset'
    have hne : connectionPresenceKey p c.1 c.2 ≠ userPresenceKey p u := by
      intro heq
      have hkey : Key.seat c = .presence u := Key.text_injective p heq
      cases hkey
    rw [expire_of_some hpres, expire_of_some (e := seatEntry ((u, t), e))]
    · exact hset'
    · rw [Function.update_of_ne hne,
        show connectionPresenceKey p c.1 c.2 = Key.text p (.seat c) from rfl, h]
      simp [Registry.entry, hy]
  · rw [if_neg hboth, if_pos]
    · exact h
    · by_contra hnot
      simp only [not_or, not_not] at hnot
      obtain ⟨h1, h2, h3, h4, h5⟩ := hnot
      exact hboth ⟨hholds.mp ⟨h1, h2, h3⟩, hseated.mp ⟨h4, h5⟩⟩

/-- The conditional end of `kClearScript` and `kRevokeScript`. -/
theorem represents_clear (h : Represents p s r) (c : Seat) (t : Bytes) (u : UserId) :
    Represents p
      (Redis.dropPresence s (userPresenceKey p u) (connectionPresenceKey p c.1 c.2) c.1
        (natText c.2) t)
      (r.clear c t u) := by
  have hdropped : Represents p (s.del (connectionPresenceKey p c.1 c.2)) (r.setSeat c none) :=
    h.setSeat c none
  have hiff := hdropped.holds_iff c t u
  unfold Redis.dropPresence Registry.clear
  by_cases hh : (r.setSeat c none).Holds c t u
  · dsimp only
    rw [if_pos (hiff.mpr hh), if_pos hh]
    exact hdropped.setPresence u none
  · dsimp only
    rw [if_neg fun hx => hh (hiff.mp hx), if_neg hh]
    exact hdropped

theorem represents_revoke (h : Represents p s r) (c : Seat) (t : Bytes) (u : UserId) :
    Represents p
      (revokeScript s (userPresenceKey p u) (connectionPresenceKey p c.1 c.2) (tokenKey p t)
        (userSessionKey p u) c.1 (natText c.2) t)
      (r.revoke c t u) := by
  have hdropped : Represents p (s.del (tokenKey p t)) (r.setToken t none) := h.setToken t none
  unfold revokeScript Registry.revoke
  dsimp only
  rw [hdropped.hget_current]
  split
  · exact represents_clear (hdropped.setCurrent u none) c t u
  · exact represents_clear hdropped c t u

theorem represents_run (h : Represents p s r) {cfg : RedisConfig} (hp : cfg.keyPrefix = p)
    (c : Command) : Represents p (c.run cfg now s) (c.apply cfg now r) := by
  subst hp
  cases c with
  | bind conn session issuedAt =>
    unfold Command.run Command.apply
    dsimp only
    split
    · exact h
    · exact represents_bind h (cfg.serverId, conn) session.token
        ⟨session.userId, session.username, issuedAt⟩ _ _
  | refresh conn session =>
    unfold Command.run Command.apply
    dsimp only
    split
    · exact h
    · exact represents_refresh h (cfg.serverId, conn) session.token session.userId _
  | clearPresence conn session =>
    unfold Command.run Command.apply
    dsimp only
    split
    · exact h
    · exact represents_clear h (cfg.serverId, conn) session.token session.userId
  | revokeSession conn session =>
    unfold Command.run Command.apply
    dsimp only
    split
    · exact h
    · exact represents_revoke h (cfg.serverId, conn) session.token session.userId
  | revokeToken token =>
    unfold Command.run Command.apply
    dsimp only
    split
    · exact h
    · exact h.setToken token none

/-- Time passes for hashes and registry alike. -/
theorem represents_purge (h : Represents p s r) (now : Nat) :
    Represents p (s.purge now) (r.purge now) := by
  have hfilter : ∀ {α : Type} (x : Option (α × Nat)) (f : α × Nat → Entry Field Bytes),
      (∀ y, (f y).deadline = some y.2) →
      (x.map f).filter (fun e => e.deadline.all (now < ·)) = (x.filter (now < ·.2)).map f := by
    intro α x f hf
    cases x with
    | none => rfl
    | some y =>
      by_cases hy : now < y.2 <;> simp [Option.filter, hf, hy]
  intro k
  show (s (k.text p)).filter _ = _
  rw [h k]
  cases k <;> exact hfilter _ _ fun _ => rfl

end ChatServer.Redis
