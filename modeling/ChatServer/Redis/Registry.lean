import ChatServer.Base.Separated
import ChatServer.Redis.SessionStore

/-!
# The session registry

What the hashes of the session store are for: live tokens, the current token
of each user, the seat (server and connection) each user was last seen on, and
the user of each seat. `Represents` ties the registry to the hashes, key by
key; `represents_run` says that every command of `RedisSessionStore` does to
the hashes what its namesake does to the registry.
-/

namespace ChatServer.Redis

open Base HashStore

/-- A server and one of its connections. -/
abbrev Seat := Bytes × ConnId

/-- Who a token belongs to. -/
structure TokenInfo where
  userId : UserId
  username : Bytes
  issuedAt : Timestamp
  deriving DecidableEq, Repr

/-- Every entry with its deadline. -/
structure Registry where
  tokens : Bytes → Option (TokenInfo × Nat)
  current : UserId → Option (Bytes × Nat)
  presence : UserId → Option ((Seat × Bytes) × Nat)
  seats : Seat → Option ((UserId × Bytes) × Nat)

namespace Registry

def empty : Registry := ⟨fun _ => none, fun _ => none, fun _ => none, fun _ => none⟩

def setToken (r : Registry) (token : Bytes) (x : Option (TokenInfo × Nat)) : Registry :=
  { r with tokens := Function.update r.tokens token x }

def setCurrent (r : Registry) (user : UserId) (x : Option (Bytes × Nat)) : Registry :=
  { r with current := Function.update r.current user x }

def setPresence (r : Registry) (user : UserId) (x : Option ((Seat × Bytes) × Nat)) : Registry :=
  { r with presence := Function.update r.presence user x }

def setSeat (r : Registry) (seat : Seat) (x : Option ((UserId × Bytes) × Nat)) : Registry :=
  { r with seats := Function.update r.seats seat x }

@[simp] theorem tokens_setToken (r : Registry) (token : Bytes) (x : Option (TokenInfo × Nat)) :
    (r.setToken token x).tokens = Function.update r.tokens token x := rfl

@[simp] theorem current_setCurrent (r : Registry) (user : UserId) (x : Option (Bytes × Nat)) :
    (r.setCurrent user x).current = Function.update r.current user x := rfl

@[simp] theorem presence_setPresence (r : Registry) (user : UserId)
    (x : Option ((Seat × Bytes) × Nat)) :
    (r.setPresence user x).presence = Function.update r.presence user x := rfl

@[simp] theorem seats_setSeat (r : Registry) (seat : Seat) (x : Option ((UserId × Bytes) × Nat)) :
    (r.setSeat seat x).seats = Function.update r.seats seat x := rfl

/-- A newer token of the user displaces the old one. -/
def displaceToken (r : Registry) (user : UserId) (token : Bytes) : Registry :=
  match r.current user with
  | some (old, _) => if old ≠ token then r.setToken old none else r
  | none => r

/-- The seat a user leaves. -/
def leaveSeat (r : Registry) (user : UserId) : Registry :=
  match r.presence user with
  | some ((seat, _), _) => r.setSeat seat none
  | none => r

/-- The user is still on the seat with this token. -/
def Holds (r : Registry) (seat : Seat) (token : Bytes) (user : UserId) : Prop :=
  (r.presence user).map (·.1) = some (seat, token)

instance (r : Registry) (seat : Seat) (token : Bytes) (user : UserId) :
    Decidable (r.Holds seat token user) := inferInstanceAs (Decidable (_ = _))

/-- The user a seat is taken from. -/
def evict (r : Registry) (seat : Seat) : Registry :=
  match r.seats seat with
  | some ((user, token), _) =>
    if r.Holds seat token user then r.setPresence user none else r
  | none => r

/-- The user sits on `seat` with `token`, from `now` on. -/
def seatUser (r : Registry) (now sessionTtl presenceTtl : Nat) (seat : Seat) (token : Bytes)
    (info : TokenInfo) : Registry :=
  let r := r.setToken token (lasting now sessionTtl fun d => (info, d))
  let r := r.setPresence info.userId (lasting now presenceTtl fun d => ((seat, token), d))
  let r := r.setSeat seat (lasting now presenceTtl fun d => ((info.userId, token), d))
  r.setCurrent info.userId (lasting now sessionTtl fun d => (token, d))

def bind (r : Registry) (now sessionTtl presenceTtl : Nat) (seat : Seat) (token : Bytes)
    (info : TokenInfo) : Registry :=
  (((r.displaceToken info.userId token).leaveSeat info.userId).evict seat).seatUser now sessionTtl
    presenceTtl seat token info

/-- Both entries of a presence live on. -/
def refresh (r : Registry) (now presenceTtl : Nat) (seat : Seat) (token : Bytes) (user : UserId) :
    Registry :=
  if r.Holds seat token user ∧ (r.seats seat).map (·.1) = some (user, token) then
    let r := r.setPresence user (lasting now presenceTtl fun d => ((seat, token), d))
    r.setSeat seat (lasting now presenceTtl fun d => ((user, token), d))
  else r

def clear (r : Registry) (seat : Seat) (token : Bytes) (user : UserId) : Registry :=
  let r := r.setSeat seat none
  if r.Holds seat token user then r.setPresence user none else r

def revoke (r : Registry) (seat : Seat) (token : Bytes) (user : UserId) : Registry :=
  let r := r.setToken token none
  let r := if (r.current user).map (·.1) = some token then r.setCurrent user none else r
  r.clear seat token user

/-- What is left at time `now`. -/
def purge (r : Registry) (now : Nat) : Registry where
  tokens t := (r.tokens t).filter (now < ·.2)
  current u := (r.current u).filter (now < ·.2)
  presence u := (r.presence u).filter (now < ·.2)
  seats c := (r.seats c).filter (now < ·.2)

end Registry

/-- A command on the registry. -/
def Command.apply (cfg : RedisConfig) (now : Nat) (r : Registry) : Command → Registry
  | .bind conn session issuedAt =>
    if conn = 0 ∨ issuedAt < 0 ∨ isValidSession session = false then r
    else
      r.bind now cfg.sessionTtlSeconds cfg.presenceTtlSeconds (cfg.serverId, conn) session.token
        ⟨session.userId, session.username, issuedAt⟩
  | .refresh conn session =>
    if conn = 0 ∨ isValidSession session = false then r
    else r.refresh now cfg.presenceTtlSeconds (cfg.serverId, conn) session.token session.userId
  | .clearPresence conn session =>
    if conn = 0 ∨ isValidSession session = false then r
    else r.clear (cfg.serverId, conn) session.token session.userId
  | .revokeSession conn session =>
    if conn = 0 ∨ isValidSession session = false then r
    else r.revoke (cfg.serverId, conn) session.token session.userId
  | .revokeToken token => if validToken token = false then r else r.setToken token none

/-! ## The keys -/

/-- What a key of the session store is about. -/
inductive Key where
  | token (t : Bytes)
  | current (u : UserId)
  | presence (u : UserId)
  | seat (c : Seat)
  deriving DecidableEq

/-- The key's text under the key prefix `p`. -/
def Key.text (p : Bytes) : Key → Bytes
  | .token t => tokenKey p t
  | .current u => userSessionKey p u
  | .presence u => userPresenceKey p u
  | .seat c => connectionPresenceKey p c.1 c.2

theorem connectionPresenceKey_inj {p : Bytes} {c d : Seat}
    (h : connectionPresenceKey p c.1 c.2 = connectionPresenceKey p d.1 d.2) : c = d := by
  unfold connectionPresenceKey at h
  simp only [List.append_assoc, List.append_cancel_left_eq] at h
  obtain ⟨hserver, hconn⟩ :=
    split_last (colon_not_mem_natText c.2) (colon_not_mem_natText d.2) h
  exact Prod.ext hserver (natText_injective hconn)

/-- Different keys have different texts. -/
theorem Key.text_injective (p : Bytes) : Function.Injective (Key.text p) := by
  intro k k' h
  cases k with
  | token t =>
    cases k' with
    | token t' => simpa [Key.text, tokenKey] using h
    | current _ | presence _ => simp [Key.text, tokenKey, userSessionKey, userPresenceKey, str] at h
    | seat _ => simp [Key.text, tokenKey, connectionPresenceKey, str] at h
  | current u =>
    cases k' with
    | current u' =>
      simp only [Key.text, userSessionKey, List.append_cancel_left_eq] at h
      rw [intText_injective h]
    | token _ | presence _ => simp [Key.text, tokenKey, userSessionKey, userPresenceKey, str] at h
    | seat _ => simp [Key.text, userSessionKey, connectionPresenceKey, str] at h
  | presence u =>
    cases k' with
    | presence u' =>
      simp only [Key.text, userPresenceKey, List.append_cancel_left_eq] at h
      rw [intText_injective h]
    | token _ | current _ => simp [Key.text, tokenKey, userSessionKey, userPresenceKey, str] at h
    | seat _ => simp [Key.text, userPresenceKey, connectionPresenceKey, str] at h
  | seat c =>
    cases k' with
    | seat d => rw [connectionPresenceKey_inj h]
    | token _ => simp [Key.text, tokenKey, connectionPresenceKey, str] at h
    | current _ => simp [Key.text, userSessionKey, connectionPresenceKey, str] at h
    | presence _ => simp [Key.text, userPresenceKey, connectionPresenceKey, str] at h

/-! ## Registry and hashes -/

def tokenEntry (x : TokenInfo × Nat) : Entry Field Bytes :=
  .of [(.userId, intText x.1.userId), (.username, x.1.username), (.issuedAt, intText x.1.issuedAt)]
    (some x.2)

def currentEntry (x : Bytes × Nat) : Entry Field Bytes := .of [(.token, x.1)] (some x.2)

def presenceEntry (x : (Seat × Bytes) × Nat) : Entry Field Bytes :=
  .of [(.serverId, x.1.1.1), (.connectionId, natText x.1.1.2), (.token, x.1.2)] (some x.2)

def seatEntry (x : (UserId × Bytes) × Nat) : Entry Field Bytes :=
  .of [(.userId, intText x.1.1), (.token, x.1.2)] (some x.2)

/-- The hash of a registry entry. -/
def Registry.entry (r : Registry) : Key → Option (Entry Field Bytes)
  | .token t => (r.tokens t).map tokenEntry
  | .current u => (r.current u).map currentEntry
  | .presence u => (r.presence u).map presenceEntry
  | .seat c => (r.seats c).map seatEntry

/-- The hashes hold the registry. -/
def Represents (p : Bytes) (s : Hashes) (r : Registry) : Prop :=
  ∀ k : Key, s (k.text p) = r.entry k

variable {p : Bytes} {s : Hashes} {r r' : Registry} {now : Nat}

theorem represents_empty : Represents p (fun _ => none) .empty := by
  intro k
  cases k <;> rfl

/-- Changing one hash and its entry. -/
theorem Represents.update (h : Represents p s r) {k : Key} {e : Option (Entry Field Bytes)}
    (hk : r'.entry k = e) (hother : ∀ k', k' ≠ k → r'.entry k' = r.entry k') :
    Represents p (Function.update s (k.text p) e) r' := by
  intro k'
  by_cases heq : k' = k
  · subst heq
    rw [Function.update_self, hk]
  · rw [Function.update_of_ne (fun ht => heq (Key.text_injective p ht)), hother k' heq]
    exact h k'

theorem Represents.setToken (h : Represents p s r) (t : Bytes) (x : Option (TokenInfo × Nat)) :
    Represents p (Function.update s (tokenKey p t) (x.map tokenEntry)) (r.setToken t x) := by
  refine h.update (k := .token t) ?_ ?_
  · simp [Registry.entry, Registry.setToken]
  · intro k hk
    cases k <;> simp_all [Registry.entry, Registry.setToken]

theorem Represents.setCurrent (h : Represents p s r) (u : UserId) (x : Option (Bytes × Nat)) :
    Represents p (Function.update s (userSessionKey p u) (x.map currentEntry))
      (r.setCurrent u x) := by
  refine h.update (k := .current u) ?_ ?_
  · simp [Registry.entry, Registry.setCurrent]
  · intro k hk
    cases k <;> simp_all [Registry.entry, Registry.setCurrent]

theorem Represents.setPresence (h : Represents p s r) (u : UserId)
    (x : Option ((Seat × Bytes) × Nat)) :
    Represents p (Function.update s (userPresenceKey p u) (x.map presenceEntry))
      (r.setPresence u x) := by
  refine h.update (k := .presence u) ?_ ?_
  · simp [Registry.entry, Registry.setPresence]
  · intro k hk
    cases k <;> simp_all [Registry.entry, Registry.setPresence]

theorem Represents.setSeat (h : Represents p s r) (c : Seat)
    (x : Option ((UserId × Bytes) × Nat)) :
    Represents p (Function.update s (connectionPresenceKey p c.1 c.2) (x.map seatEntry))
      (r.setSeat c x) := by
  refine h.update (k := .seat c) ?_ ?_
  · simp [Registry.entry, Registry.setSeat]
  · intro k hk
    cases k <;> simp_all [Registry.entry, Registry.setSeat]

/-! ## Reading -/

theorem Represents.hget (h : Represents p s r) (k : Key) (f : Field) :
    s.hget (k.text p) f = (r.entry k).bind (·.fields f) := by
  rw [HashStore.hget, h k]

theorem Represents.hget_current (h : Represents p s r) (u : UserId) :
    s.hget (userSessionKey p u) .token = (r.current u).map (·.1) := by
  rw [show userSessionKey p u = Key.text p (.current u) from rfl, h.hget]
  cases hu : r.current u <;> simp only [Registry.entry, hu] <;> rfl

theorem Represents.hget_presence (h : Represents p s r) (u : UserId) :
    s.hget (userPresenceKey p u) .serverId = (r.presence u).map (·.1.1.1) ∧
    s.hget (userPresenceKey p u) .connectionId = (r.presence u).map (natText ·.1.1.2) ∧
    s.hget (userPresenceKey p u) .token = (r.presence u).map (·.1.2) := by
  rw [show userPresenceKey p u = Key.text p (.presence u) from rfl, h.hget, h.hget, h.hget]
  cases hu : r.presence u <;> simp only [Registry.entry, hu] <;> exact ⟨rfl, rfl, rfl⟩

theorem Represents.hget_seat (h : Represents p s r) (c : Seat) :
    s.hget (connectionPresenceKey p c.1 c.2) .userId = (r.seats c).map (intText ·.1.1) ∧
    s.hget (connectionPresenceKey p c.1 c.2) .token = (r.seats c).map (·.1.2) := by
  rw [show connectionPresenceKey p c.1 c.2 = Key.text p (.seat c) from rfl, h.hget, h.hget]
  cases hc : r.seats c <;> simp only [Registry.entry, hc] <;> exact ⟨rfl, rfl⟩

/-- The test of the scripts: is the user still on this seat with this token. -/
theorem Represents.holds_iff (h : Represents p s r) (c : Seat) (t : Bytes) (u : UserId) :
    (s.hget (userPresenceKey p u) .serverId = some c.1 ∧
      s.hget (userPresenceKey p u) .connectionId = some (natText c.2) ∧
      s.hget (userPresenceKey p u) .token = some t) ↔ r.Holds c t u := by
  obtain ⟨hserver, hconn, htoken⟩ := h.hget_presence u
  rw [hserver, hconn, htoken, Registry.Holds]
  cases hu : r.presence u with
  | none => simp
  | some x =>
    simp only [Option.map_some, Option.some.injEq]
    constructor
    · rintro ⟨h1, h2, h3⟩
      exact Prod.ext (Prod.ext h1 (natText_injective h2)) h3
    · intro heq
      rw [heq]
      exact ⟨rfl, rfl, rfl⟩

theorem Represents.seated_iff (h : Represents p s r) (c : Seat) (t : Bytes) (u : UserId) :
    (s.hget (connectionPresenceKey p c.1 c.2) .userId = some (intText u) ∧
      s.hget (connectionPresenceKey p c.1 c.2) .token = some t) ↔
      (r.seats c).map (·.1) = some (u, t) := by
  obtain ⟨huser, htoken⟩ := h.hget_seat c
  rw [huser, htoken]
  cases hc : r.seats c with
  | none => simp
  | some x =>
    simp only [Option.map_some, Option.some.injEq]
    constructor
    · rintro ⟨h1, h2⟩
      exact Prod.ext (intText_injective h1) h2
    · intro heq
      rw [heq]
      exact ⟨rfl, rfl⟩

/-! ## Writing -/

theorem lasting_map {α β : Type} (f : α → β) (now ttl : Nat) (g : Nat → α) :
    (lasting now ttl g).map f = lasting now ttl fun d => f (g d) := by
  unfold lasting
  split <;> rfl

/-- `HSET` of all fields and `EXPIRE` on a key of the registry. -/
theorem Represents.put (h : Represents p s r) {k : Key} {ps : List (Field × Bytes)} {ttl : Nat}
    (hfields : ∀ e, r.entry k = some e →
      ∃ qs d, e = Entry.of qs d ∧ qs.map Prod.fst = ps.map Prod.fst) :
    (s.hset (k.text p) ps).expire (k.text p) now ttl = s.put (k.text p) ps now ttl :=
  expire_hset now ttl fun e he => hfields e ((h k).symm.trans he)

theorem Represents.putToken (h : Represents p s r) (t : Bytes) (info : TokenInfo) (ttl : Nat) :
    Represents p
      ((s.hset (tokenKey p t) [(.userId, intText info.userId), (.username, info.username),
        (.issuedAt, intText info.issuedAt)]).expire (tokenKey p t) now ttl)
      (r.setToken t (lasting now ttl fun d => (info, d))) := by
  have hset := h.setToken t (lasting now ttl fun d => (info, d))
  rw [lasting_map] at hset
  rw [show tokenKey p t = Key.text p (.token t) from rfl, h.put]
  · exact hset
  · intro e he
    obtain ⟨x, -, rfl⟩ := Option.map_eq_some_iff.mp he
    exact ⟨_, _, rfl, rfl⟩

theorem Represents.putCurrent (h : Represents p s r) (u : UserId) (t : Bytes) (ttl : Nat) :
    Represents p
      ((s.hset (userSessionKey p u) [(.token, t)]).expire (userSessionKey p u) now ttl)
      (r.setCurrent u (lasting now ttl fun d => (t, d))) := by
  have hset := h.setCurrent u (lasting now ttl fun d => (t, d))
  rw [lasting_map] at hset
  rw [show userSessionKey p u = Key.text p (.current u) from rfl, h.put]
  · exact hset
  · intro e he
    obtain ⟨x, -, rfl⟩ := Option.map_eq_some_iff.mp he
    exact ⟨_, _, rfl, rfl⟩

theorem Represents.putPresence (h : Represents p s r) (u : UserId) (c : Seat) (t : Bytes)
    (ttl : Nat) :
    Represents p
      ((s.hset (userPresenceKey p u) [(.serverId, c.1), (.connectionId, natText c.2),
        (.token, t)]).expire (userPresenceKey p u) now ttl)
      (r.setPresence u (lasting now ttl fun d => ((c, t), d))) := by
  have hset := h.setPresence u (lasting now ttl fun d => ((c, t), d))
  rw [lasting_map] at hset
  rw [show userPresenceKey p u = Key.text p (.presence u) from rfl, h.put]
  · exact hset
  · intro e he
    obtain ⟨x, -, rfl⟩ := Option.map_eq_some_iff.mp he
    exact ⟨_, _, rfl, rfl⟩

theorem Represents.putSeat (h : Represents p s r) (c : Seat) (u : UserId) (t : Bytes)
    (ttl : Nat) :
    Represents p
      ((s.hset (connectionPresenceKey p c.1 c.2) [(.userId, intText u), (.token, t)]).expire
        (connectionPresenceKey p c.1 c.2) now ttl)
      (r.setSeat c (lasting now ttl fun d => ((u, t), d))) := by
  have hset := h.setSeat c (lasting now ttl fun d => ((u, t), d))
  rw [lasting_map] at hset
  rw [show connectionPresenceKey p c.1 c.2 = Key.text p (.seat c) from rfl, h.put]
  · exact hset
  · intro e he
    obtain ⟨x, -, rfl⟩ := Option.map_eq_some_iff.mp he
    exact ⟨_, _, rfl, rfl⟩

end ChatServer.Redis
