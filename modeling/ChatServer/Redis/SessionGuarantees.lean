import ChatServer.Redis.Presence

/-!
# What the session store guarantees

* `one_live_token` — the live token of a user is the one `session:user` names;
* `presence_mirrored` — `presence:user` and `presence:conn` mirror each other,
  and the commands of an old connection do not touch the user's newer presence.
-/

namespace ChatServer.Redis

open Base HashStore

variable {p : Bytes} {w : World}

/-! ## One live token -/

theorem oneToken_inductive :
    (lts p).Inductive (fun _ _ => True) fun w => ∃ r, Represents p w.hashes r ∧ r.OneToken where
  init w hw := by
    refine ⟨.empty, ?_, ?_⟩
    · rw [hw.1]
      exact represents_empty
    · intro t info d ht
      cases ht
  step w e w' hw _ hstep := by
    obtain ⟨r, hr, hone⟩ := hw
    cases e with
    | command cfg c =>
      simp only [lts, World.step] at hstep
      split at hstep
      · rename_i hp
        obtain rfl := Option.some.inj hstep
        exact ⟨_, represents_run hr hp c, hone.apply cfg c⟩
      · cases hstep
    | tick seconds =>
      obtain rfl := Option.some.inj hstep
      exact ⟨_, represents_purge hr _, hone.purge _⟩

/-- The user a token key names. -/
theorem Represents.hget_tokenUser {s : Hashes} {r : Registry} (h : Represents p s r) (t : Bytes) :
    s.hget (tokenKey p t) .userId = (r.tokens t).map (intText ·.1.userId) := by
  rw [show tokenKey p t = Key.text p (.token t) from rfl, h.hget]
  cases ht : r.tokens t <;> simp only [Registry.entry, ht] <;> rfl

/-- After any commands of any servers and any expiry, every token key of user
`u` is the one named by `session:user:u`; so two different tokens are never
valid for one user. -/
theorem one_live_token (h : (lts p).Reachable w) :
    (∀ t u, w.hashes.hget (tokenKey p t) .userId = some (intText u) →
      w.hashes.hget (userSessionKey p u) .token = some t) ∧
    ∀ t t' u, w.hashes.hget (tokenKey p t) .userId = some (intText u) →
      w.hashes.hget (tokenKey p t') .userId = some (intText u) → t = t' := by
  obtain ⟨r, hr, hone⟩ := oneToken_inductive.invariant h
  have hnamed : ∀ t u, w.hashes.hget (tokenKey p t) .userId = some (intText u) →
      w.hashes.hget (userSessionKey p u) .token = some t := by
    intro t u ht
    rw [hr.hget_tokenUser] at ht
    obtain ⟨⟨info, d⟩, hx, hu⟩ := Option.map_eq_some_iff.mp ht
    obtain rfl := intText_injective hu
    rw [hr.hget_current, hone t info d hx]
    rfl
  refine ⟨hnamed, fun t t' u ht ht' => ?_⟩
  have heq := (hnamed t u ht).symm.trans (hnamed t' u ht')
  exact Option.some.inj heq

/-- Two servers that share a Redis. -/
def serverA : RedisConfig := ⟨str "chat", str "server-a", 604800, 120⟩

def serverB : RedisConfig := ⟨str "chat", str "server-b", 604800, 120⟩

/-- A login of user 10001 with a token of one repeated digit. -/
def aliceWith (digit : UInt8) : ConnectionSession :=
  ⟨true, 10001, str "alice", List.replicate 64 digit⟩

/-- The user logs in on one server and then on the other. -/
def secondLogin : List Event :=
  [.command serverA (.bind 42 (aliceWith 97) 1), .command serverB (.bind 77 (aliceWith 98) 2)]

/-- The theorem after a second login, whose token is live. -/
theorem one_live_token_second_login :
    ∃ w, (lts (str "chat")).Reachable w ∧
      w.hashes.hget (tokenKey (str "chat") (aliceWith 98).token) .userId = some (intText 10001) ∧
      w.hashes.hget (userSessionKey (str "chat") 10001) .token = some (aliceWith 98).token := by
  obtain ⟨w, hw, h⟩ := Lts.exists_reach_of_run (M := lts (str "chat"))
    (s := ⟨0, fun _ => none, fun _ => none⟩)
    (fun w => decide (w.hashes.hget (tokenKey (str "chat") (aliceWith 98).token) .userId =
      some (intText 10001)))
    secondLogin ⟨rfl, rfl⟩ Lts.runOk_true (by decide +kernel)
  have hlive := of_decide_eq_true h
  exact ⟨w, hw, hlive, (one_live_token hw).1 _ _ hlive⟩

/-! ## Mirrored presence -/

theorem mirror_inductive :
    (lts p).Inductive PassesBound
      fun w => ∃ r, Represents p w.hashes r ∧ r.Mirror ∧ r.Bound w.bound where
  init w hw := by
    refine ⟨.empty, ?_, ?_, ?_⟩
    · rw [hw.1]
      exact represents_empty
    · intro u c t d
      simp [Registry.empty]
    · intro c u t d hx
      cases hx
  step w e w' hw hpass hstep := by
    obtain ⟨r, hr, hm, hb⟩ := hw
    cases e with
    | command cfg c =>
      simp only [lts, World.step] at hstep
      split at hstep
      · rename_i hp
        obtain rfl := Option.some.inj hstep
        exact ⟨_, represents_run hr hp c, mirror_apply hm hb hpass⟩
      · cases hstep
    | tick seconds =>
      obtain rfl := Option.some.inj hstep
      exact ⟨_, represents_purge hr _, hm.purge _, hb.purge _⟩

/-- The hash at a user's presence key. -/
def World.presence (p : Bytes) (w : World) (u : UserId) (c : Seat) (t : Bytes) : Prop :=
  w.hashes.hget (userPresenceKey p u) .serverId = some c.1 ∧
    w.hashes.hget (userPresenceKey p u) .connectionId = some (natText c.2) ∧
    w.hashes.hget (userPresenceKey p u) .token = some t

instance (w : World) (u : UserId) (c : Seat) (t : Bytes) : Decidable (w.presence p u c t) :=
  inferInstanceAs (Decidable (_ ∧ _))

/-- The hash at a connection's presence key. -/
def World.seated (p : Bytes) (w : World) (c : Seat) (u : UserId) (t : Bytes) : Prop :=
  w.hashes.hget (connectionPresenceKey p c.1 c.2) .userId = some (intText u) ∧
    w.hashes.hget (connectionPresenceKey p c.1 c.2) .token = some t

/-- The command of a connection that passes its bound session. -/
inductive Command.FromConnection (conn : ConnId) (session : ConnectionSession) : Command → Prop
  | refresh : FromConnection conn session (.refresh conn session)
  | clearPresence : FromConnection conn session (.clearPresence conn session)
  | revokeSession : FromConnection conn session (.revokeSession conn session)

/-- A registry operation of a superseded connection. -/
theorem Registry.superseded {r : Registry} (now : Nat) {cfg : RedisConfig} {conn : ConnId}
    {session : ConnectionSession} {c : Command} (hc : c.FromConnection conn session)
    (hholds : ¬ r.Holds (cfg.serverId, conn) session.token session.userId) {seat : Seat}
    (hseat : seat ≠ (cfg.serverId, conn)) :
    (c.apply cfg now r).presence session.userId = r.presence session.userId ∧
      (c.apply cfg now r).seats seat = r.seats seat := by
  cases hc with
  | refresh =>
    unfold Command.apply
    dsimp only
    split
    · exact ⟨rfl, rfl⟩
    · rw [Registry.refresh, if_neg fun h => hholds h.1]
      exact ⟨rfl, rfl⟩
  | clearPresence =>
    unfold Command.apply
    dsimp only
    split
    · exact ⟨rfl, rfl⟩
    · rw [Registry.presence_clear, Registry.seats_clear, if_neg hholds,
        Function.update_of_ne hseat]
      exact ⟨rfl, rfl⟩
  | revokeSession =>
    unfold Command.apply
    dsimp only
    split
    · exact ⟨rfl, rfl⟩
    · unfold Registry.revoke
      dsimp only
      split
      · rw [Registry.presence_clear, Registry.seats_clear, Function.update_of_ne hseat,
          if_neg (show ¬ ((r.setToken session.token none).setCurrent session.userId none).Holds _ _ _
            from hholds)]
        exact ⟨rfl, rfl⟩
      · rw [Registry.presence_clear, Registry.seats_clear, Function.update_of_ne hseat,
          if_neg (show ¬ (r.setToken session.token none).Holds _ _ _ from hholds)]
        exact ⟨rfl, rfl⟩

/-- The presence of a user names a connection and a token exactly when that
connection's entry names the user and the token; and a command of a connection
whose binding was superseded leaves the user's newer presence and its
connection's entry alone. -/
theorem presence_mirrored (h : (lts p).Reach PassesBound w) :
    (∀ u c t, w.presence p u c t ↔ w.seated p c u t) ∧
    ∀ (cfg : RedisConfig) (conn : ConnId) (session : ConnectionSession) (c : Command) (seat : Seat)
        (t : Bytes), cfg.keyPrefix = p → c.FromConnection conn session →
      w.bound (cfg.serverId, conn) = some session →
      w.presence p session.userId seat t → (seat, t) ≠ ((cfg.serverId, conn), session.token) →
      (c.run cfg w.now w.hashes) (userPresenceKey p session.userId) =
          w.hashes (userPresenceKey p session.userId) ∧
        (c.run cfg w.now w.hashes) (connectionPresenceKey p seat.1 seat.2) =
          w.hashes (connectionPresenceKey p seat.1 seat.2) := by
  obtain ⟨r, hr, hm, hb⟩ := mirror_inductive.invariant h
  have hpres : ∀ u c t, w.presence p u c t ↔ r.Holds c t u := fun u c t => hr.holds_iff c t u
  refine ⟨fun u c t => ?_, ?_⟩
  · rw [hpres, World.seated, hr.seated_iff, Registry.Holds]
    constructor
    · intro hx
      obtain ⟨⟨x, d⟩, hx, rfl⟩ := Option.map_eq_some_iff.mp hx
      rw [(hm u c t d).mp hx]
      rfl
    · intro hx
      obtain ⟨⟨x, d⟩, hx, rfl⟩ := Option.map_eq_some_iff.mp hx
      rw [(hm u c t d).mpr hx]
      rfl
  · intro cfg conn session c seat t hp hc hbound hnow hne
    rw [hpres] at hnow
    obtain ⟨⟨x, d⟩, hx, rfl⟩ := Option.map_eq_some_iff.mp hnow
    -- the newer presence is on another seat: this seat holds the session bound to it
    have hseat : seat ≠ (cfg.serverId, conn) := by
      rintro rfl
      obtain ⟨session', hs, -, ht⟩ := hb _ _ _ _ ((hm _ _ _ d).mp hx)
      rw [hbound, Option.some.injEq] at hs
      subst hs
      exact hne (by rw [ht])
    have hholds : ¬ r.Holds (cfg.serverId, conn) session.token session.userId := by
      intro hh
      rw [Registry.Holds, hx] at hh
      exact hne (Option.some.inj hh)
    obtain ⟨hpresence, hseats⟩ := Registry.superseded w.now hc hholds hseat
    have hrun : Represents p (c.run cfg w.now w.hashes) (c.apply cfg w.now r) :=
      represents_run hr hp c
    constructor
    · have hkey : ∀ s r, Represents p s r →
          s (userPresenceKey p session.userId) = (r.presence session.userId).map presenceEntry :=
        fun s r h => h (.presence session.userId)
      rw [hkey _ _ hrun, hkey _ _ hr, hpresence]
    · have hkey : ∀ s r, Represents p s r →
          s (connectionPresenceKey p seat.1 seat.2) = (r.seats seat).map seatEntry :=
        fun s r h => h (.seat seat)
      rw [hkey _ _ hrun, hkey _ _ hr, hseats]

/-- After the second login the first connection closes: the newer presence stays. -/
theorem presence_mirrored_second_login :
    ∃ w, (lts (str "chat")).Reach PassesBound w ∧
      w.presence (str "chat") 10001 (str "server-b", 77) (aliceWith 98).token ∧
      w.seated (str "chat") (str "server-b", 77) 10001 (aliceWith 98).token ∧
      ((Command.clearPresence 42 (aliceWith 97)).run serverA w.now w.hashes)
          (userPresenceKey (str "chat") 10001) = w.hashes (userPresenceKey (str "chat") 10001) := by
  have hok : (lts (str "chat")).RunOk PassesBound ⟨0, fun _ => none, fun _ => none⟩ secondLogin :=
    ⟨trivial, fun _ _ => ⟨trivial, fun _ _ => trivial⟩⟩
  obtain ⟨w, hw, h⟩ := Lts.exists_reach_of_run (M := lts (str "chat"))
    (s := ⟨0, fun _ => none, fun _ => none⟩)
    (fun w => decide (w.presence (str "chat") 10001 (str "server-b", 77) (aliceWith 98).token ∧
      w.bound (str "server-a", 42) = some (aliceWith 97)))
    secondLogin ⟨rfl, rfl⟩ hok (by decide +kernel)
  obtain ⟨hpresence, hbound⟩ := of_decide_eq_true h
  have hall := presence_mirrored hw
  exact ⟨w, hw, hpresence, (hall.1 _ _ _).mp hpresence,
    (hall.2 serverA 42 (aliceWith 97) _ _ _ rfl .clearPresence hbound hpresence (by decide)).1⟩

end ChatServer.Redis
