import ChatServer.Base.Fetch
import ChatServer.Common.Validator
import ChatServer.Db.Records
import Mathlib.Data.Int.Order.Basic
import Mathlib.Data.List.Sort
import Mathlib.Data.Prod.Lex

/-!
# `FriendRepository::listFriendships`

The friendships of a user, joined with the accounts of the peers, and read into
buffers of fixed size. The validator counts the code points of a nickname, the
column its characters, and the buffer its bytes: `list_friends_iff` says which
tables can be listed, and `long_nickname_hides_friends` is one that cannot.
-/

namespace ChatServer.Db

open Base

/-- The text the client library makes of a `TIMESTAMP`: `YYYY-MM-DD hh:mm:ss`. -/
structure TimeFormat where
  text : Timestamp → Bytes
  length_text : ∀ t, (text t).length = 19

/-- A row of `users`, with a username and a nickname that registration accepts. -/
structure Account where
  id : UserId
  username : Bytes
  nickname : Bytes
  username_valid : Validator.username username = none
  nickname_valid : Validator.nickname nickname = none

/-- A row of `friendships`. -/
structure FriendshipRow where
  id : Int
  requesterId : UserId
  addresseeId : UserId
  status : FriendshipStatus
  createdAt : Timestamp
  updatedAt : Timestamp
  deriving DecidableEq, Repr

/-- The two tables, with the primary key of `users` and the foreign keys of
`friendships`. -/
structure FriendTables where
  users : List Account
  friendships : List FriendshipRow
  users_nodup : (users.map Account.id).Nodup
  requester_exists : ∀ f ∈ friendships, f.requesterId ∈ users.map Account.id
  addressee_exists : ∀ f ∈ friendships, f.addresseeId ∈ users.map Account.id

/-- `ParseFriendshipStatus`. -/
def parseFriendshipStatus (raw : Bytes) : Option FriendshipStatus :=
  if raw = str "pending" then some .pending
  else if raw = str "accepted" then some .accepted
  else if raw = str "blocked" then some .blocked
  else none

namespace FriendshipRow

variable (f : FriendshipRow) (userId : UserId)

/-- `WHERE f.requester_id=? OR f.addressee_id=?`. -/
def involves : Bool := f.requesterId = userId ∨ f.addresseeId = userId

/-- `IF(f.requester_id=?, f.addressee_id, f.requester_id)`. -/
def peer : UserId := if f.requesterId = userId then f.addresseeId else f.requesterId

/-- `(updated_at, id)`. -/
def key : ℤ ×ₗ ℤ := toLex (f.updatedAt, f.id)

def direction : Bytes := if f.requesterId = userId then str "outgoing" else str "incoming"

end FriendshipRow

/-- The accounts the join finds for a friendship. -/
def FriendTables.peers (t : FriendTables) (userId : UserId) (f : FriendshipRow) : List Account :=
  t.users.filter fun a => a.id = f.peer userId

/-- The result of the query, in its order. -/
def FriendTables.listed (t : FriendTables) (userId : UserId) : List (FriendshipRow × Account) :=
  ((t.friendships.filter fun f => f.involves userId).flatMap fun f =>
    (t.peers userId f).map fun a => (f, a)).insertionSort fun p q => q.1.key ≤ p.1.key

section

variable (fmt : TimeFormat) (userId : UserId)

/-- The text columns of a row and the buffers they are bound to. -/
def listColumns (row : FriendshipRow × Account) : List Bound :=
  [⟨row.1.status.toProtocol, 21⟩, ⟨fmt.text row.1.createdAt, 32⟩, ⟨fmt.text row.1.updatedAt, 32⟩,
    ⟨row.2.username, 65⟩, ⟨row.2.nickname, 65⟩]

/-- The item built from a fetched row. -/
def listItem (row : FriendshipRow × Account) : Option FriendshipListItem :=
  (parseFriendshipStatus row.1.status.toProtocol).map fun status =>
    { userId := row.2.id
      username := row.2.username
      nickname := row.2.nickname
      status
      direction := row.1.direction userId
      createdAt := fmt.text row.1.createdAt
      updatedAt := fmt.text row.1.updatedAt }

/-- `listFriendships`, when the statement is carried out. -/
def listFriendships (t : FriendTables) : ListFriendshipsResult :=
  match fetchAll (listColumns fmt) (listItem fmt userId) (t.listed userId) with
  | some friends => { status := .ok, friends }
  | none => { status := .queryFailed }

/-- The item shows a friendship, with the peer as registered. -/
structure FriendTables.Shows (t : FriendTables) (f : FriendshipRow) (item : FriendshipListItem) :
    Prop where
  peer : item.userId = f.peer userId
  account : ∃ a ∈ t.users, a.id = item.userId ∧ item.username = a.username ∧
    item.nickname = a.nickname
  status : item.status = f.status
  direction : item.direction = f.direction userId
  createdAt : item.createdAt = fmt.text f.createdAt
  updatedAt : item.updatedAt = fmt.text f.updatedAt

end

/-! ## The join -/

section

variable {t : FriendTables} {userId : UserId} {f : FriendshipRow}

/-- The foreign keys: every friendship has a peer. -/
theorem FriendTables.peer_exists (userId : UserId) (hf : f ∈ t.friendships) :
    f.peer userId ∈ t.users.map Account.id := by
  unfold FriendshipRow.peer
  split
  · exact t.addressee_exists f hf
  · exact t.requester_exists f hf

/-- The join finds exactly one account. -/
theorem FriendTables.peers_eq_singleton (userId : UserId) (hf : f ∈ t.friendships) :
    ∃ a ∈ t.users, a.id = f.peer userId ∧ t.peers userId f = [a] := by
  obtain ⟨a, ha, hid⟩ := List.mem_map.mp (t.peer_exists userId hf)
  refine ⟨a, ha, hid, ?_⟩
  have hmem : ∀ b ∈ t.peers userId f, b = a := by
    intro b hb
    obtain ⟨hb, hbid⟩ := List.mem_filter.mp hb
    exact List.inj_on_of_nodup_map t.users_nodup hb ha ((decide_eq_true_eq.mp hbid).trans hid.symm)
  have hnodup : (t.peers userId f).Nodup :=
    (List.Nodup.of_map _ t.users_nodup).filter _
  have ha' : a ∈ t.peers userId f := List.mem_filter.mpr ⟨ha, decide_eq_true hid⟩
  exact List.Perm.eq_singleton ((List.perm_ext_iff_of_nodup hnodup (List.nodup_singleton a)).mpr
    fun b => ⟨fun hb => List.mem_singleton.mpr (hmem b hb),
      fun hb => by rw [List.mem_singleton.mp hb]; exact ha'⟩)

theorem map_fst_flatMap (rows : List FriendshipRow) (h : ∀ f ∈ rows, f ∈ t.friendships) :
    (rows.flatMap fun f => (t.peers userId f).map fun a => (f, a)).map Prod.fst = rows := by
  induction rows with
  | nil => rfl
  | cons f rest ih =>
    obtain ⟨a, -, -, hpeers⟩ := t.peers_eq_singleton userId (h f List.mem_cons_self)
    have hrest := ih fun f hf => h f (List.mem_cons_of_mem _ hf)
    rw [List.flatMap_cons, List.map_append, hrest, hpeers]
    rfl

/-- One row for every friendship of the user. -/
theorem FriendTables.listed_perm (t : FriendTables) (userId : UserId) :
    ((t.listed userId).map Prod.fst).Perm (t.friendships.filter fun f => f.involves userId) := by
  have hsort := (List.perm_insertionSort (fun p q : FriendshipRow × Account => q.1.key ≤ p.1.key)
    ((t.friendships.filter fun f => f.involves userId).flatMap fun f =>
      (t.peers userId f).map fun a => (f, a))).map Prod.fst
  rw [map_fst_flatMap _ fun f hf => List.mem_of_mem_filter hf] at hsort
  exact hsort

theorem FriendTables.mem_listed {row : FriendshipRow × Account} :
    row ∈ t.listed userId ↔ row.1 ∈ t.friendships ∧ row.1.involves userId = true ∧
      row.2 ∈ t.users ∧ row.2.id = row.1.peer userId := by
  obtain ⟨f, a⟩ := row
  unfold FriendTables.listed FriendTables.peers
  rw [List.mem_insertionSort]
  simp only [List.mem_flatMap, List.mem_filter, List.mem_map, decide_eq_true_eq, Prod.mk.injEq]
  constructor
  · rintro ⟨f', ⟨hf, hinvolves⟩, a', ⟨ha, hid⟩, rfl, rfl⟩
    exact ⟨hf, hinvolves, ha, hid⟩
  · rintro ⟨hf, hinvolves, ha, hid⟩
    exact ⟨f, ⟨hf, hinvolves⟩, a, ⟨ha, hid⟩, rfl, rfl⟩

end

/-! ## The buffers -/

theorem parse_toProtocol (status : FriendshipStatus) :
    parseFriendshipStatus status.toProtocol = some status := by
  cases status <;> decide

theorem length_username (a : Account) : a.username.length ≤ 32 := by
  have hvalid := a.username_valid
  unfold Validator.username at hvalid
  split at hvalid
  · cases hvalid
  next h =>
    unfold Validator.usernameMinLength Validator.usernameMaxLength at h
    omega

/-- Only a nickname can be too long for its buffer. -/
theorem fits_iff_nickname (fmt : TimeFormat) (row : FriendshipRow × Account) :
    fits (listColumns fmt) row = true ↔ row.2.nickname.length ≤ 65 := by
  have hstatus : row.1.status.toProtocol.length ≤ 21 := by
    cases row.1.status <;> decide
  have hcreated := fmt.length_text row.1.createdAt
  have hupdated := fmt.length_text row.1.updatedAt
  have husername := length_username row.2
  rw [fits_iff]
  constructor
  · intro h
    exact h ⟨row.2.nickname, 65⟩ (by simp [listColumns])
  · intro h b hb
    simp only [listColumns, List.mem_cons, List.not_mem_nil, or_false] at hb
    rcases hb with rfl | rfl | rfl | rfl | rfl
    · exact hstatus
    · show (fmt.text row.1.createdAt).length ≤ 32
      omega
    · show (fmt.text row.1.updatedAt).length ≤ 32
      omega
    · show row.2.username.length ≤ 65
      omega
    · exact h

theorem listItem_eq (fmt : TimeFormat) (userId : UserId) (row : FriendshipRow × Account) :
    listItem fmt userId row = some
      { userId := row.2.id, username := row.2.username, nickname := row.2.nickname
        status := row.1.status, direction := row.1.direction userId
        createdAt := fmt.text row.1.createdAt, updatedAt := fmt.text row.1.updatedAt } := by
  unfold listItem
  rw [parse_toProtocol]
  rfl

/-- A fetched row shows its friendship. -/
theorem shows_of_listed {fmt : TimeFormat} {t : FriendTables} {userId : UserId}
    {row : FriendshipRow × Account} {item : FriendshipListItem} (hrow : row ∈ t.listed userId)
    (hitem : listItem fmt userId row = some item) : t.Shows fmt userId row.1 item := by
  obtain ⟨-, -, ha, hid⟩ := FriendTables.mem_listed.mp hrow
  rw [listItem_eq] at hitem
  obtain rfl := Option.some.inj hitem
  exact ⟨hid, ⟨row.2, ha, rfl, rfl, rfl⟩, rfl, rfl, rfl, rfl⟩

/-- `listFriendships` succeeds, with one item for every friendship of the user that
shows the peer's names as they were registered, exactly if every peer's nickname
has at most 65 bytes. -/
theorem list_friends_iff (fmt : TimeFormat) (t : FriendTables) (userId : UserId) :
    ((listFriendships fmt userId t).status = .ok ∧
        ∃ rows : List FriendshipRow,
          rows.Perm (t.friendships.filter fun f => f.involves userId) ∧
            List.Forall₂ (t.Shows fmt userId) rows (listFriendships fmt userId t).friends) ↔
      ∀ f ∈ t.friendships, f.involves userId = true →
        ∀ a ∈ t.users, a.id = f.peer userId → a.nickname.length ≤ 65 := by
  constructor
  · rintro ⟨hok, -⟩ f hf hinvolves a ha hid
    have hmem : (f, a) ∈ t.listed userId := FriendTables.mem_listed.mpr ⟨hf, hinvolves, ha, hid⟩
    by_contra hlong
    have hnone : fetchAll (listColumns fmt) (listItem fmt userId) (t.listed userId) = none :=
      fetchAll_eq_none_iff.mpr ⟨(f, a), hmem, .inl (Bool.eq_false_of_not_eq_true fun hfits =>
        hlong ((fits_iff_nickname fmt (f, a)).mp hfits))⟩
    unfold listFriendships at hok
    rw [hnone] at hok
    cases hok
  · intro hshort
    cases hfetch : fetchAll (listColumns fmt) (listItem fmt userId) (t.listed userId) with
    | none =>
      obtain ⟨row, hrow, hbad⟩ := fetchAll_eq_none_iff.mp hfetch
      obtain ⟨hf, hinvolves, ha, hid⟩ := FriendTables.mem_listed.mp hrow
      rcases hbad with hunfit | hbuild
      · have hfits := (fits_iff_nickname fmt row).mpr (hshort _ hf hinvolves _ ha hid)
        rw [hunfit] at hfits
        cases hfits
      · rw [listItem_eq] at hbuild
        cases hbuild
    | some friends =>
      unfold listFriendships
      rw [hfetch]
      refine ⟨rfl, _, t.listed_perm userId, ?_⟩
      rw [List.forall₂_map_left_iff]
      have hrows := fetchAll_eq_some_iff.mp hfetch
      refine List.Forall₂.imp ?_ ((List.forall₂_and_left ..).mpr ⟨fun _ h => h, hrows⟩)
      intro row item hrow
      exact shows_of_listed hrow.1 hrow.2.2

/-! ## A nickname of 22 code points -/

def alice : Account :=
  { id := 1, username := str "alice", nickname := str "Alice"
    username_valid := by decide, nickname_valid := by decide +kernel }

/-- Registered with a nickname of 22 code points, 66 bytes. -/
def zhong : Account :=
  { id := 2, username := str "zhong", nickname := Validator.wideText 22
    username_valid := by decide
    nickname_valid := Validator.nickname_wideText (by decide) (by decide) }

/-- The two are friends. -/
def friends : FriendTables where
  users := [alice, zhong]
  friendships := [⟨1, 1, 2, .accepted, 100, 200⟩]
  users_nodup := by decide
  requester_exists := by decide
  addressee_exists := by decide

/-- One long nickname, and the whole list cannot be read. -/
theorem long_nickname_hides_friends :
    listFriendships ⟨fun _ => str "2024-01-01 00:00:00", fun _ => rfl⟩ 1 friends =
      { status := .queryFailed, friends := [] } := by
  decide +kernel

end ChatServer.Db
