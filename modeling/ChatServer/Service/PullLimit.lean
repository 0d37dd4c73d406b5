import ChatServer.Service.Pagination

/-!
# The limit of a pull

`parsePullOfflineMessagesRequest` narrows the client's integer to `int32_t`
before `pullOfflineMessages` compares it with 1 and 100. Within that range the
integer is the limit of the page. Outside it the request is refused, unless the
narrowed value is in the range again. A row of the page that does not fit its buffer
makes the request fail.

* `RightPage` — the answer to a client that asked for `n` messages;
* `pull_limit_iff` — when the server gives it.
-/

namespace ChatServer.Service

open Base Db Codec Json

variable (coll : Collation) (t : Tables)

/-- What a client that asked for `n` messages is told when `remaining` are
left. -/
def RightPage (n : Int) (remaining : Nat) (result : PullOfflineMessagesResult) : Prop :=
  if n < 1 ∨ 100 < n then result.code = .invalidParam
  else result.code = .ok ∧ (result.messages.length : Int) ≤ n ∧
    (n ≤ remaining → (result.messages.length : Int) = n)

variable {coll t} {session : ConnectionSession} {req : PullOfflineMessagesRequest}

/-- A request with a limit gets a page, unless the repository has failed. -/
theorem pullOffline_not_refused (hbefore : req.beforeMessageId = [])
    (hcursor : Validator.cursor req.sinceMessageId = none)
    (hlimit : 1 ≤ req.limit ∧ req.limit ≤ 100) :
    (pullOffline coll t session req).code ≠ .invalidParam := by
  have hmapped : ∀ status, mapRepositoryError status ≠ .invalidParam := by
    intro status
    cases status <;> exact nofun
  rw [pullOffline_asks hbefore hlimit hcursor]
  dsimp only
  split
  · exact hmapped _
  · exact nofun

theorem rightPage_iff_fits {n : Int} (hn : 1 ≤ n ∧ n ≤ 100) {since : Bytes}
    (hcursor : Validator.cursor since = none) :
    RightPage n (remainingRows coll t session.userId since).length
        (pullOffline coll t session ⟨n, [], since⟩) ↔
      ∀ m ∈ (remainingRows coll t session.userId since).take (n.toNat + 1),
        fits messageColumns m = true := by
  rw [RightPage, if_neg (by omega)]
  constructor
  · rintro ⟨hok, -⟩
    exact (pullOffline_ok_iff.mp hok).2.2.2
  · intro hfit
    have hok : (pullOffline coll t session ⟨n, [], since⟩).code = .ok :=
      pullOffline_ok_iff.mpr ⟨rfl, hn, hcursor, hfit⟩
    refine ⟨hok, ?_⟩
    rw [pullOffline_eq hok, List.length_map, List.length_take]
    dsimp only
    omega

theorem parsePullOfflineMessagesRequest_ok {data : Json} {n : Int} {before since : Option Bytes}
    (hlimit : integer? (data.field? (str "limit")) = some n)
    (hbefore : optionalString data "before_message_id" = .ok before)
    (hsince : optionalString data "since_message_id" = .ok since) :
    parsePullOfflineMessagesRequest data = .ok ⟨Json.toInt32 n, before.getD [], since.getD []⟩ := by
  have hfield : integerField data "limit" = .ok n := by
    unfold integerField
    cases hv : data.field? (str "limit") with
    | none =>
      rw [hv] at hlimit
      cases hlimit
    | some v =>
      rw [hv] at hlimit
      dsimp only
      rw [hlimit]
  unfold parsePullOfflineMessagesRequest
  rw [hfield, hbefore, hsince]
  rfl

/-- In the range of a limit, narrowing is the remainder. -/
theorem toInt32_limit_iff (n k : Int) (hk : 1 ≤ k ∧ k ≤ 100) :
    Json.toInt32 n = k ↔ n % 2 ^ 32 = k := by
  unfold Json.toInt32 Int.bmod
  dsimp only
  split <;> omega

/-- A client gets the page it asked for exactly when its integer is not narrowed
to a limit that it is not and, for a limit, the rows of the page and the next one fit
their buffers. -/
theorem pull_limit_iff (coll : Collation) (t : Tables) {session : ConnectionSession}
    (hauth : session.authenticated = true) (conn : ConnId) {data : Json} {n : Int}
    {before since : Option Bytes} (hlimit : integer? (data.field? (str "limit")) = some n)
    (hbefore : optionalString data "before_message_id" = .ok before) (hnone : before.getD [] = [])
    (hsince : optionalString data "since_message_id" = .ok since)
    (hcursor : Validator.cursor (since.getD []) = none) :
    ∃ req, parsePullOfflineMessagesRequest data = .ok req ∧
      (ChatService.pullOfflineMessages conn req).Returns (ReadsFrom coll t session) fun result =>
        (RightPage n (remainingRows coll t session.userId (since.getD [])).length result ↔
          (1 ≤ n % 2 ^ 32 ∧ n % 2 ^ 32 ≤ 100 → n % 2 ^ 32 = n) ∧
          (1 ≤ n ∧ n ≤ 100 →
            ∀ m ∈ (remainingRows coll t session.userId (since.getD [])).take (n.toNat + 1),
              fits messageColumns m = true)) := by
  refine ⟨_, parsePullOfflineMessagesRequest_ok hlimit hbefore hsince, ?_⟩
  refine (pullOfflineMessages_returns coll t hauth conn _).mono ?_
  rintro result rfl
  rw [hnone]
  by_cases hn : 1 ≤ n ∧ n ≤ 100
  · have hsame : n % 2 ^ 32 = n := by omega
    rw [(toInt32_limit_iff n n hn).mpr hsame, rightPage_iff_fits hn hcursor]
    exact ⟨fun hfit => ⟨fun _ => hsame, fun _ => hfit⟩, fun h => h.2 hn⟩
  · rw [RightPage, if_pos (by omega)]
    by_cases hrange : 1 ≤ n % 2 ^ 32 ∧ n % 2 ^ 32 ≤ 100
    · -- the client's integer is out of range, and yet it is not refused
      rw [(toInt32_limit_iff n _ hrange).mpr rfl]
      have hanswer : (pullOffline coll t session ⟨n % 2 ^ 32, [], since.getD []⟩).code ≠
          .invalidParam := pullOffline_not_refused rfl hcursor hrange
      refine ⟨fun hrefused => absurd hrefused hanswer, fun h => ?_⟩
      exact absurd (h.1 hrange ▸ hrange) hn
    · have hrefused : ¬ (1 ≤ Json.toInt32 n ∧ Json.toInt32 n ≤ 100) := by
        intro hinside
        rw [(toInt32_limit_iff n _ hinside).mp rfl] at hrange
        exact hrange hinside
      refine ⟨fun _ => ⟨fun h => absurd h hrange, fun h => absurd h hn⟩, fun _ => ?_⟩
      rw [pullOffline_refused rfl hrefused]

/-- Three messages wait. -/
theorem threeForBob_rows : (remainingRows id threeForBob.tables bob.userId []).length = 3 := by
  decide +kernel

theorem threeForBob_fits : ∀ m ∈ remainingRows id threeForBob.tables bob.userId [],
    fits messageColumns m = true := fun m hm =>
  (threeForBob.readable m (mem_inbox.mp (mem_remainingRows hm)).1).2

/-- A page of two is asked for. -/
theorem pull_limit_iff_two :
    ∃ req, parsePullOfflineMessagesRequest (.object [(str "limit", .numberUnsigned 2)]) = .ok req ∧
      (ChatService.pullOfflineMessages 1 req).Returns (ReadsFrom id threeForBob.tables bob)
        fun result => RightPage 2 3 result ∧ result.messages.length = 2 := by
  have hauth : bob.authenticated = true := rfl
  have hlimit : integer? (field? (.object [(str "limit", .numberUnsigned 2)]) (str "limit")) =
    some 2 := rfl
  obtain ⟨req, hparse, hpull⟩ := pull_limit_iff id threeForBob.tables hauth 1 hlimit rfl rfl rfl rfl
  refine ⟨req, hparse, hpull.mono fun result hiff => ?_⟩
  rw [show (none : Option Bytes).getD [] = [] from rfl, threeForBob_rows] at hiff
  have hright : RightPage 2 3 result := hiff.mpr
    ⟨fun _ => by decide, fun _ m hm => threeForBob_fits m (List.mem_of_mem_take hm)⟩
  refine ⟨hright, ?_⟩
  rw [RightPage, if_neg (by decide)] at hright
  exact Int.ofNat.inj (hright.2.2 (by decide))

/-- The limit 2^32 + 2 is taken for 2. -/
theorem pull_limit_narrowed :
    ∃ req, parsePullOfflineMessagesRequest
        (.object [(str "limit", .numberUnsigned 4294967298)]) = .ok req ∧
      (ChatService.pullOfflineMessages 1 req).Returns (ReadsFrom id threeForBob.tables bob)
        fun result => result.code = .ok ∧ result.messages.length = 2 ∧
          ¬ RightPage 4294967298 3 result := by
  have hok : (pullOffline id threeForBob.tables bob ⟨2, [], []⟩).code = .ok :=
    pullOffline_ok_iff.mpr ⟨rfl, by decide, rfl, fun m hm =>
      threeForBob_fits m (List.mem_of_mem_take hm)⟩
  refine ⟨⟨2, [], []⟩, rfl,
    (pullOfflineMessages_returns id threeForBob.tables rfl 1 ⟨2, [], []⟩).mono ?_⟩
  rintro result rfl
  refine ⟨hok, ?_, fun hright => ?_⟩
  · rw [pullOffline_eq hok, List.length_map, List.length_take, threeForBob_rows]
    rfl
  · rw [RightPage, if_pos (by decide), hok] at hright
    cases hright

end ChatServer.Service
