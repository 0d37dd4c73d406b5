import ChatServer.Common.Text
import ChatServer.Db.MessageStatus

/-!
# The cached user repository

`CachedUserRepository` in front of `UserRepository`. Any number of calls, of any
number of instances, run against one Redis and one `users` table; every Redis
command and every statement is a step of its own, and between two of them the
others may do anything. A call keeps the creations that had returned when it
started, and a returned search the answer of its own last source read.

* `advance` — one step of a call;
* `usersLts` — all calls, and Redis dropping what is due;
* `Timely` — no negative entry is written for a user whose creation has
  returned;
* `user_not_hidden` — on such runs a search started after the creation returns
  what the source answered.
-/

namespace ChatServer.Cache

open Base (Lts)
open Db (UserRecord FindUserResult CreateUserResult RepositoryStatus SqlChoice mapBorrowError
  failureStatus)

/-! ## Keys and values -/

/-- `kNotFoundValue`. -/
def notFoundValue : Bytes := str "__not_found__"

/-- `UserKey`. -/
def userKey (keyPrefix : Bytes) (userId : UserId) : Bytes :=
  keyPrefix ++ str ":user:id:" ++ intText userId

/-- `UsernameKey`. -/
def usernameKey (keyPrefix username : Bytes) : Bytes :=
  keyPrefix ++ str ":user:name:" ++ username

/-- `std::stoll`: blanks, a sign, the longest run of digits, then anything;
`none` where it throws. -/
def stoll (value : Bytes) : Option Int :=
  let text := value.dropWhile fun b => b = 32 ∨ (9 ≤ b ∧ b ≤ 13)
  let (negative, rest) := match text with
    | 45 :: rest => (true, rest)
    | 43 :: rest => (false, rest)
    | _ => (false, text)
  let digits := rest.takeWhile fun b => 48 ≤ b ∧ b ≤ 57
  let magnitude : Int := digits.foldl (fun n b => n * 10 + (b.toNat - 48)) 0
  let number := if negative then -magnitude else magnitude
  if digits = [] ∨ number < -2 ^ 63 ∨ 2 ^ 63 ≤ number then none else some number

/-! ## The source -/

section

variable (coll : Db.Collation)

/-- `ReadUser` of the row that matches, on a borrowed connection. A row that does
not fit the buffers is a refusal. -/
def readUser (choice : SqlChoice) (row : Option UserRecord) : FindUserResult :=
  match choice.borrowError with
  | some error => { status := mapBorrowError error }
  | none =>
    match (choice.fate.deliver () (.ok (row, ()))).1 with
    | .error errno => { status := failureStatus errno .queryFailed }
    | .ok (some user) => { status := .ok, user := some user }
    | .ok none => { status := .notFound }

/-- `WHERE username=?`. -/
def rowByUsername (users : List UserRecord) (username : Bytes) : Option UserRecord :=
  users.find? fun u => coll u.username = coll username

/-- `WHERE id=?`. -/
def rowById (users : List UserRecord) (userId : UserId) : Option UserRecord :=
  users.find? fun u => u.id = userId

/-- The status of a failed `INSERT`. -/
def insertFailure (errno : Nat) : RepositoryStatus :=
  if errno = Db.duplicateEntryError then .duplicate else failureStatus errno .insertFailed

/-- `UserRepository::createUser`: its result and the row it stores. `user` has the
id `AUTO_INCREMENT` gives out. -/
def insertUser (choice : SqlChoice) (users : List UserRecord) (user : UserRecord) :
    CreateUserResult × Option UserRecord :=
  let effect := if (rowByUsername coll users user.username).isSome then
    .error Db.duplicateEntryError else .ok (user.id, some user)
  match choice.borrowError with
  | some error => ({ status := mapBorrowError error }, none)
  | none =>
    match choice.fate.deliver none effect with
    | (.error errno, row) => ({ status := insertFailure errno }, row)
    | (.ok userId, row) =>
      (if userId ≤ 0 then { status := .insertFailed } else { status := .ok, userId }, row)

end

/-! ## Calls -/

/-- A call of the repository. -/
inductive Request where
  | findByUsername (username : Bytes)
  | findById (userId : UserId)
  | createUser (username passwordHash nickname : Bytes)
  deriving DecidableEq, Repr

/-- Where a call stands. The positions of `findById` keep the username of the
`findByUsername` it is part of. -/
inductive Position where
  /-- `GET` of the username's key -/
  | getName (username : Bytes)
  /-- `DEL` of a key whose value is no number -/
  | dropName (username : Bytes)
  /-- `source_->findByUsername` -/
  | readName (username : Bytes)
  /-- `CacheNotFound` of the username's key -/
  | cacheName (username : Bytes) (result : FindUserResult)
  /-- `GET` of the id's key -/
  | getId (userId : UserId) (outer : Option Bytes)
  /-- `source_->findById` -/
  | readId (userId : UserId) (outer : Option Bytes)
  /-- `CacheNotFound` of the id's key -/
  | cacheId (userId : UserId) (outer : Option Bytes) (result : FindUserResult)
  /-- `source_->createUser` -/
  | insert (username passwordHash nickname : Bytes)
  /-- `DEL` of both keys of a created user -/
  | invalidate (username : Bytes) (userId : UserId)
  /-- a search has returned, after this answer of the source, if any -/
  | found (result : FindUserResult) (source : Option FindUserResult)
  /-- `createUser` has returned -/
  | created (result : CreateUserResult)
  deriving DecidableEq, Repr

/-- The first step of a call. -/
def Request.start : Request → Position
  | .findByUsername username => .getName username
  | .findById userId => .getId userId none
  | .createUser username passwordHash nickname => .insert username passwordHash nickname

/-- `findById` has a result: its caller returns it if it is `kOk`, and asks the
source by name otherwise. -/
def Position.idResult (outer : Option Bytes) (result : FindUserResult)
    (source : Option FindUserResult) : Position :=
  match outer with
  | none => .found result source
  | some username => if result.status = .ok then .found result source else .readName username

/-- A command to Redis. -/
inductive Command where
  | get (key : Bytes)
  | del (keys : List Bytes)
  | setNotFound (key : Bytes)
  deriving DecidableEq, Repr

abbrev Strings := Bytes → Option Bytes

/-- What a command leaves. -/
def Command.apply : Command → Strings → Strings
  | .get _, redis => redis
  | .del keys, redis => fun key => if key ∈ keys then none else redis key
  | .setNotFound key, redis => Function.update redis key (some notFoundValue)

/-- What one step of a call does: its Redis command, the row it stores, the
creation that returns with it, and where the call goes on. -/
structure Effect where
  command : Option Command := none
  row : Option UserRecord := none
  returned : Option (Bytes × UserId) := none
  next : Position

/-- What the environment decides in a step: what becomes of a statement, and the next
id of the table. -/
structure Env where
  choice : SqlChoice
  nextId : UserId
  deriving DecidableEq, Repr

section

variable (coll : Db.Collation)

/-- One step of a call; `none` when it has returned, or when the id is in use. -/
def advance (keyPrefix : Bytes) (redis : Strings) (users : List UserRecord) (env : Env) :
    Position → Option Effect
  | .getName username =>
    let key := usernameKey keyPrefix username
    let next : Position :=
      match redis key with
      | none => .readName username
      | some value =>
        if value = notFoundValue then .found { status := .notFound } none
        else
          match stoll value with
          | some userId => .getId userId (some username)
          | none => .dropName username
    some { command := some (.get key), next }
  | .dropName username =>
    some { command := some (.del [usernameKey keyPrefix username]), next := .readName username }
  | .readName username =>
    let result := readUser env.choice (rowByUsername coll users username)
    some { next := if result.status = .notFound then .cacheName username result
                   else .found result (some result) }
  | .cacheName username result =>
    some { command := some (.setNotFound (usernameKey keyPrefix username))
           next := .found result (some result) }
  | .getId userId outer =>
    let key := userKey keyPrefix userId
    some { command := some (.get key)
           next := if redis key = some notFoundValue then
                     Position.idResult outer { status := .notFound } none
                   else .readId userId outer }
  | .readId userId outer =>
    let result := readUser env.choice (rowById users userId)
    some { next := if result.status = .notFound then .cacheId userId outer result
                   else Position.idResult outer result (some result) }
  | .cacheId userId outer result =>
    some { command := some (.setNotFound (userKey keyPrefix userId))
           next := Position.idResult outer result (some result) }
  | .insert username passwordHash nickname =>
    if users.any fun u => u.id = env.nextId then none
    else
      let (result, row) :=
        insertUser coll env.choice users ⟨env.nextId, username, passwordHash, nickname⟩
      some { row, next := if result.status = .ok then .invalidate username result.userId
                          else .created result }
  | .invalidate username userId =>
    some { command := some (.del [usernameKey keyPrefix username, userKey keyPrefix userId])
           returned := some (username, userId)
           next := .created { status := .ok, userId } }
  | .found .. => none
  | .created _ => none

end

/-- A call under way or returned. -/
structure Call where
  /-- of the instance's configuration -/
  keyPrefix : Bytes
  request : Request
  /-- the creations that had returned when the call started -/
  since : List (Bytes × UserId)
  position : Position
  deriving DecidableEq, Repr

/-- Redis, the `users` table and all calls. -/
structure State (κ : Type) where
  redis : Strings
  users : List UserRecord
  calls : κ → Option Call
  /-- username and id of every `createUser` that has returned `kOk` -/
  returned : List (Bytes × UserId)

inductive Label (κ : Type) where
  /-- a call of an instance with this key prefix -/
  | start (k : κ) (keyPrefix : Bytes) (request : Request)
  | step (k : κ) (env : Env)
  /-- Redis drops a key, by its lifetime or for room -/
  | expire (key : Bytes)
  deriving DecidableEq, Repr

variable {κ : Type} [DecidableEq κ]

/-- The state after a step of call `k`. -/
def State.after (s : State κ) (k : κ) (call : Call) (effect : Effect) : State κ where
  redis := (effect.command.elim id Command.apply) s.redis
  users := s.users ++ effect.row.toList
  calls := Function.update s.calls k (some { call with position := effect.next })
  returned := s.returned ++ effect.returned.toList

/-- All calls together, from any contents of Redis and of the table. -/
def usersLts (coll : Db.Collation) (κ : Type) [DecidableEq κ] : Lts (State κ) (Label κ) where
  Init s := (∀ k, s.calls k = none) ∧ s.returned = []
  step s
    | .start k keyPrefix request =>
      match s.calls k with
      | none =>
        let call : Call := ⟨keyPrefix, request, s.returned, request.start⟩
        some { s with calls := Function.update s.calls k (some call) }
      | some _ => none
    | .step k env => do
        let call ← s.calls k
        let effect ← advance coll call.keyPrefix s.redis s.users env call.position
        some (s.after k call effect)
    | .expire key => some { s with redis := Function.update s.redis key none }

/-- The key a position is about to store a negative entry under. -/
def Position.negativeKey (keyPrefix : Bytes) : Position → Option Bytes
  | .cacheName username _ => some (usernameKey keyPrefix username)
  | .cacheId userId _ _ => some (userKey keyPrefix userId)
  | _ => none

/-- A key of the user a creation made. -/
def IsKeyOf (keyPrefix : Bytes) (user : Bytes × UserId) (key : Bytes) : Prop :=
  key = usernameKey keyPrefix user.1 ∨ key = userKey keyPrefix user.2

instance (keyPrefix : Bytes) (user : Bytes × UserId) (key : Bytes) :
    Decidable (IsKeyOf keyPrefix user key) :=
  inferInstanceAs (Decidable (_ ∨ _))

/-- Every instance has this key prefix, and none stores a negative entry for a
user whose creation has returned, that is after the `DEL` of the creation. -/
def Timely (keyPrefix : Bytes) (s : State κ) : Label κ → Prop
  | .start _ p _ => p = keyPrefix
  | .step k _ =>
    ∀ key ∈ (s.calls k).bind fun call => call.position.negativeKey keyPrefix,
      ∀ user ∈ s.returned, ¬IsKeyOf keyPrefix user key
  | .expire _ => True

instance (keyPrefix : Bytes) (s : State κ) : ∀ l, Decidable (Timely keyPrefix s l)
  | .start _ p _ => inferInstanceAs (Decidable (p = keyPrefix))
  | .step _ _ => inferInstanceAs (Decidable (∀ key ∈ Option.bind .., ∀ user ∈ s.returned, ¬_))
  | .expire _ => isTrue trivial

/-! ## What a step can do -/

section

variable {coll : Db.Collation} {p : Bytes} {redis : Strings} {users : List UserRecord} {env : Env}
  {position : Position} {effect : Effect}

/-- Whoever searches for a user that exists is told so, or that the search failed. -/
theorem readUser_some (choice : SqlChoice) (u : UserRecord) :
    (readUser choice (some u)).status ≠ .notFound ∧
      ((readUser choice (some u)).status = .ok → (readUser choice (some u)).user = some u) := by
  have hfailed : ∀ status : RepositoryStatus, status ≠ .notFound → status ≠ .ok →
      status ≠ .notFound ∧ (status = .ok → (none : Option UserRecord) = some u) :=
    fun _ hfound hok => ⟨hfound, fun h => absurd h hok⟩
  have herror : ∀ errno, failureStatus errno .queryFailed ≠ .notFound ∧
      failureStatus errno .queryFailed ≠ .ok := by
    intro errno
    unfold failureStatus
    split <;> exact ⟨nofun, nofun⟩
  obtain ⟨borrowError, fate⟩ := choice
  cases borrowError with
  | some error =>
    refine hfailed (mapBorrowError error) ?_ (Db.mapBorrowError_ne_ok error)
    unfold mapBorrowError
    split <;> exact nofun
  | none =>
    cases fate with
    | answered => exact ⟨nofun, fun _ => rfl⟩
    | refused errno | aborted errno | unanswered errno =>
      exact hfailed _ (herror errno).1 (herror errno).2

theorem insertFailure_ne_ok (errno : Nat) : insertFailure errno ≠ .ok := by
  unfold insertFailure
  split
  · exact nofun
  · exact @Db.failureStatus_ne_ok .insertFailed nofun errno

/-- A successful creation has stored its row. -/
theorem insertUser_ok {choice : SqlChoice} {user : UserRecord}
    (h : (insertUser coll choice users user).1.status = .ok) :
    (insertUser coll choice users user).2 = some user ∧
      (insertUser coll choice users user).1.userId = user.id := by
  obtain ⟨borrowError, fate⟩ := choice
  cases borrowError with
  | some error => exact absurd h (Db.mapBorrowError_ne_ok error)
  | none =>
    by_cases htaken : (rowByUsername coll users user.username).isSome = true
    · simp only [insertUser, htaken, if_true] at h
      cases fate with
      | answered => exact absurd h (insertFailure_ne_ok Db.duplicateEntryError)
      | refused errno | aborted errno | unanswered errno =>
        exact absurd h (insertFailure_ne_ok errno)
    · simp only [insertUser, htaken] at h ⊢
      cases fate with
      | answered =>
        by_cases hid : user.id ≤ 0
        · simp [Base.Fate.deliver, hid] at h
        · simp [Base.Fate.deliver, hid]
      | refused errno | aborted errno | unanswered errno =>
        exact absurd h (insertFailure_ne_ok errno)

/-- Only `CacheNotFound` stores anything in Redis. -/
theorem advance_setNotFound {key : Bytes} (h : advance coll p redis users env position = some effect)
    (hc : effect.command = some (.setNotFound key)) : position.negativeKey p = some key := by
  cases position <;> simp only [advance, Option.some.injEq, reduceCtorEq] at h
  case insert =>
    split at h
    · cases h
    · cases h
      cases hc
  all_goals
    subst h
    simp_all [Position.negativeKey]

variable {username : Bytes} {userId : UserId}

/-- A creation returns with the `DEL` of its keys. -/
theorem advance_returned (h : advance coll p redis users env position = some effect)
    (hr : effect.returned = some (username, userId)) :
    position = .invalidate username userId ∧
      effect.command = some (.del [usernameKey p username, userKey p userId]) := by
  cases position <;> simp only [advance, Option.some.injEq, reduceCtorEq] at h
  case insert =>
    split at h
    · cases h
    · cases h
      cases hr
  all_goals
    subst h
    simp_all

theorem idResult_ne_invalidate {outer : Option Bytes} {result : FindUserResult}
    {source : Option FindUserResult} :
    Position.idResult outer result source ≠ .invalidate username userId := by
  unfold Position.idResult
  split
  · exact Position.noConfusion
  · split <;> exact Position.noConfusion

/-- A creation goes on to the `DEL` only with its row in the table. -/
theorem advance_invalidate (h : advance coll p redis users env position = some effect)
    (hn : effect.next = .invalidate username userId) :
    ∃ u ∈ users ++ effect.row.toList, u.username = username ∧ u.id = userId := by
  -- an insertion that was answered `kOk` is the only way there
  cases position with
  | insert name passwordHash nickname =>
    simp only [advance] at h
    split at h
    · cases h
    · cases h
      dsimp only at hn ⊢
      split at hn
      next hok =>
        obtain ⟨hrow, hid⟩ := insertUser_ok hok
        cases hn
        refine ⟨⟨env.nextId, username, passwordHash, nickname⟩, ?_, rfl, hid.symm⟩
        rw [hrow]
        exact List.mem_append_right _ (List.mem_singleton_self _)
      next => cases hn
  | getName name =>
    cases h
    dsimp only at hn
    split at hn
    · cases hn
    · split at hn
      · cases hn
      · split at hn <;> cases hn
  | readName name =>
    cases h
    dsimp only at hn
    split at hn <;> cases hn
  | getId id outer =>
    cases h
    dsimp only at hn
    split at hn
    · exact absurd hn idResult_ne_invalidate
    · cases hn
  | readId id outer =>
    cases h
    dsimp only at hn
    split at hn
    · cases hn
    · exact absurd hn idResult_ne_invalidate
  | cacheId id outer result =>
    cases h
    exact absurd hn idResult_ne_invalidate
  | dropName | cacheName | invalidate =>
    cases h
    cases hn
  | found | created => cases h

end

/-! ## Searches after the creation -/

/-- The request is a search for this user. -/
def Request.SearchesFor (user : Bytes × UserId) : Request → Prop
  | .findByUsername username => username = user.1
  | .findById userId => userId = user.2
  | .createUser .. => False

/-- The row is one the request asks for. -/
def Request.Matches (coll : Db.Collation) (row : UserRecord) : Request → Prop
  | .findByUsername username => coll row.username = coll username
  | .findById userId => row.id = userId
  | .createUser .. => False

/-- The result is the answer of the source, and not `kNotFound`. -/
structure FromSource (coll : Db.Collation) (users : List UserRecord) (request : Request)
    (result : FindUserResult) (source : Option FindUserResult) : Prop where
  answer : source = some result
  present : result.status ≠ .notFound
  user : result.status = .ok → ∃ u ∈ users, result.user = some u ∧ request.Matches coll u

/-- The positions of a search that finds nothing under its key. -/
inductive OnCourse (coll : Db.Collation) (users : List UserRecord) : Request → Position → Prop
  | getName (username : Bytes) : OnCourse coll users (.findByUsername username) (.getName username)
  | readName (username : Bytes) : OnCourse coll users (.findByUsername username) (.readName username)
  | getId (userId : UserId) : OnCourse coll users (.findById userId) (.getId userId none)
  | readId (userId : UserId) : OnCourse coll users (.findById userId) (.readId userId none)
  | found {request : Request} {result : FindUserResult} {source : Option FindUserResult}
      (h : FromSource coll users request result source) :
      OnCourse coll users request (.found result source)

section

variable {coll : Db.Collation} {p : Bytes} {redis : Strings} {users : List UserRecord} {env : Env}
  {position : Position} {effect : Effect} {request : Request}

theorem OnCourse.mono {users' : List UserRecord} (h : OnCourse coll users request position)
    (hsub : users ⊆ users') : OnCourse coll users' request position := by
  cases h with
  | found h =>
    refine .found ⟨h.answer, h.present, fun hok => ?_⟩
    obtain ⟨u, hu, huser⟩ := h.user hok
    exact ⟨u, hsub hu, huser⟩
  | getName => exact .getName _
  | readName => exact .readName _
  | getId => exact .getId _
  | readId => exact .readId _

theorem OnCourse.fromSource {result : FindUserResult} {source : Option FindUserResult}
    (h : OnCourse coll users request (.found result source)) :
    FromSource coll users request result source := by
  cases h with
  | found h => exact h

theorem OnCourse.start {user : Bytes × UserId} (h : request.SearchesFor user) :
    OnCourse coll users request request.start := by
  cases request with
  | findByUsername username => exact .getName username
  | findById userId => exact .getId userId
  | createUser => exact absurd h id

/-- A source read that finds a row ends the search with it. -/
theorem fromSource_readUser {row : UserRecord} (hrow : row ∈ users) (hm : request.Matches coll row) :
    FromSource coll users request (readUser env.choice (some row))
      (some (readUser env.choice (some row))) where
  answer := rfl
  present := (readUser_some env.choice row).1
  user hok := ⟨row, hrow, (readUser_some env.choice row).2 hok, hm⟩

/-- A search for a row that is there finds one. -/
theorem exists_find?_eq_some {q : UserRecord → Bool} {u : UserRecord} (hu : u ∈ users)
    (hq : q u = true) : ∃ row ∈ users, users.find? q = some row ∧ q row = true := by
  obtain ⟨row, hrow⟩ := Option.isSome_iff_exists.mp (List.find?_isSome.mpr ⟨u, hu, hq⟩)
  exact ⟨row, List.mem_of_find?_eq_some hrow, hrow, List.find?_some hrow⟩

/-- With the user in the table and nothing cached under the user's keys, a search
goes from its `GET` to the source and returns what it reads there. -/
theorem OnCourse.advance {user : Bytes × UserId} (h : OnCourse coll users request position)
    (hreq : request.SearchesFor user) (hstored : ∃ u ∈ users, u.username = user.1 ∧ u.id = user.2)
    (huncached : ∀ key, IsKeyOf p user key → redis key = none)
    (hstep : advance coll p redis users env position = some effect) :
    OnCourse coll users request effect.next := by
  obtain ⟨u, hu, hname, hid⟩ := hstored
  cases h with
  | getName username =>
    -- nothing is cached, so the search goes on to the source
    have hkey : redis (usernameKey p username) = none := by
      refine huncached _ (Or.inl ?_)
      rw [show username = user.1 from hreq]
    cases hstep
    simp only [hkey]
    exact .readName username
  | getId userId =>
    have hkey : redis (userKey p userId) = none := by
      refine huncached _ (Or.inr ?_)
      rw [show userId = user.2 from hreq]
    cases hstep
    simp only [hkey, reduceCtorEq, if_false]
    exact .readId userId
  | readName username =>
    -- the source finds a row of that name, this one or another
    have hq : decide (coll u.username = coll username) = true := by
      rw [hname, ← show username = user.1 from hreq]
      exact decide_eq_true rfl
    obtain ⟨row, hmem, hrow, hmatch⟩ :=
      exists_find?_eq_some (q := fun u => coll u.username = coll username) hu hq
    cases hstep
    simp only [rowByUsername, hrow, (readUser_some env.choice row).1, if_false]
    have hmatch : coll row.username = coll username := of_decide_eq_true hmatch
    exact .found (fromSource_readUser hmem hmatch)
  | readId userId =>
    have hq : decide (u.id = userId) = true := by
      rw [hid, ← show userId = user.2 from hreq]
      exact decide_eq_true rfl
    obtain ⟨row, hmem, hrow, hmatch⟩ := exists_find?_eq_some (q := fun u => u.id = userId) hu hq
    cases hstep
    simp only [rowById, hrow, (readUser_some env.choice row).1, if_false, Position.idResult]
    have hmatch : row.id = userId := of_decide_eq_true hmatch
    exact .found (fromSource_readUser hmem hmatch)
  | found => cases hstep

end

/-! ## The invariant -/

section

variable (coll : Db.Collation) (p : Bytes)

/-- What holds of one call. -/
structure CallOk (s : State κ) (call : Call) : Prop where
  keyPrefix : call.keyPrefix = p
  since : call.since ⊆ s.returned
  inserted : ∀ username userId, call.position = .invalidate username userId →
    ∃ u ∈ s.users, u.username = username ∧ u.id = userId
  onCourse : ∀ user ∈ call.since, call.request.SearchesFor user →
    OnCourse coll s.users call.request call.position

/-- Users whose creation has returned are in the table, and Redis has nothing
under their keys. -/
structure Visible (s : State κ) : Prop where
  stored : ∀ user ∈ s.returned, ∃ u ∈ s.users, u.username = user.1 ∧ u.id = user.2
  uncached : ∀ user ∈ s.returned, ∀ key, IsKeyOf p user key → s.redis key = none
  calls : ∀ k call, s.calls k = some call → CallOk coll p s call

end

section

variable {coll : Db.Collation} {p : Bytes} {s : State κ}

omit [DecidableEq κ] in
/-- A call that does not move keeps what holds of it while table and creations grow. -/
theorem CallOk.mono {t : State κ} {call : Call} (h : CallOk coll p s call)
    (husers : s.users ⊆ t.users) (hreturned : s.returned ⊆ t.returned) : CallOk coll p t call where
  keyPrefix := h.keyPrefix
  since := List.Subset.trans h.since hreturned
  inserted username userId hpos := by
    obtain ⟨u, hu, hrow⟩ := h.inserted username userId hpos
    exact ⟨u, husers hu, hrow⟩
  onCourse user huser hreq := (h.onCourse user huser hreq).mono husers

/-- A timely command stores nothing under the keys of a user that has been created. -/
theorem Visible.uncached_after {k : κ} {call : Call} {env : Env} {effect : Effect}
    (h : Visible coll p s) (hcall : s.calls k = some call)
    (hok : Timely p s (.step k env))
    (hstep : advance coll p s.redis s.users env call.position = some effect)
    {user : Bytes × UserId} (huser : user ∈ (s.after k call effect).returned) {key : Bytes}
    (hkey : IsKeyOf p user key) : (s.after k call effect).redis key = none := by
  rcases List.mem_append.mp huser with hold | hnew
  · have hnone := h.uncached user hold key hkey
    show (effect.command.elim id Command.apply) s.redis key = none
    -- only a negative entry stores something, and it is timely
    match hc : effect.command with
    | none => exact hnone
    | some (.get _) => exact hnone
    | some (.del keys) =>
      show (if key ∈ keys then none else s.redis key) = none
      rw [hnone, ite_self]
    | some (.setNotFound key') =>
      have hneg := advance_setNotFound hstep hc
      have hne : key ≠ key' := by
        rintro rfl
        exact hok key (by rw [hcall]; exact hneg) user hold hkey
      show Function.update s.redis key' _ key = none
      rw [Function.update_of_ne hne, hnone]
  · -- a creation returns with the `DEL` of the keys of its user
    obtain ⟨-, hc⟩ := advance_returned hstep (Option.mem_toList.mp hnew)
    show (effect.command.elim id Command.apply) s.redis key = none
    rw [hc]
    exact if_pos (by simpa [IsKeyOf] using hkey)

/-- A step of a call keeps the invariant. -/
theorem Visible.after {k : κ} {call : Call} {env : Env} {effect : Effect}
    (h : Visible coll p s) (hcall : s.calls k = some call) (hok : Timely p s (.step k env))
    (hstep : advance coll call.keyPrefix s.redis s.users env call.position = some effect) :
    Visible coll p (s.after k call effect) := by
  have hc := h.calls k call hcall
  rw [hc.keyPrefix] at hstep
  have husers : s.users ⊆ (s.after k call effect).users := List.subset_append_left ..
  have hreturned : s.returned ⊆ (s.after k call effect).returned := List.subset_append_left ..
  refine ⟨?_, fun user huser key hkey => h.uncached_after hcall hok hstep huser hkey, ?_⟩
  · intro user huser
    rcases List.mem_append.mp huser with hold | hnew
    · obtain ⟨u, hu, hrow⟩ := h.stored user hold
      exact ⟨u, husers hu, hrow⟩
    · obtain ⟨hpos, -⟩ := advance_returned hstep (Option.mem_toList.mp hnew)
      obtain ⟨u, hu, hrow⟩ := hc.inserted _ _ hpos
      exact ⟨u, husers hu, hrow⟩
  · intro k' call' hcall'
    by_cases hk : k' = k
    · subst hk
      have hcall' : some { call with position := effect.next } = some call' := by
        rw [← hcall']
        exact (Function.update_self k' _ s.calls).symm
      cases hcall'
      refine ⟨hc.keyPrefix, List.Subset.trans hc.since hreturned, ?_, ?_⟩
      · intro username userId hnext
        exact advance_invalidate hstep hnext
      · intro user huser hreq
        have hmem := hc.since huser
        exact ((hc.onCourse user huser hreq).advance hreq (h.stored user hmem)
          (h.uncached user hmem) hstep).mono husers
    · have hcall' : s.calls k' = some call' := by
        rw [← hcall']
        exact (Function.update_of_ne hk _ s.calls).symm
      exact (h.calls k' call' hcall').mono husers hreturned

/-- Every timely run keeps the invariant. -/
theorem visible_inductive : (usersLts coll κ).Inductive (Timely p) (Visible coll p) where
  init s hs := by
    obtain ⟨hcalls, hreturned⟩ := hs
    refine ⟨?_, ?_, ?_⟩
    · simp [hreturned]
    · simp [hreturned]
    · intro k call hcall
      rw [hcalls k] at hcall
      cases hcall
  step s l s' h hok hstep := by
    cases l with
    | start k q request =>
      simp only [usersLts] at hstep
      split at hstep
      next hfree =>
        cases hstep
        refine ⟨h.stored, h.uncached, ?_⟩
        intro k' call hcall
        by_cases hk : k' = k
        · subst hk
          replace hcall := (Function.update_self k' _ s.calls).symm.trans hcall
          cases hcall
          refine ⟨hok, List.Subset.refl _, ?_, fun _ _ hreq => .start hreq⟩
          intro username userId hpos
          cases request <;> cases hpos
        · replace hcall := (Function.update_of_ne hk _ s.calls).symm.trans hcall
          exact (h.calls k' call hcall).mono (List.Subset.refl _) (List.Subset.refl _)
      next => cases hstep
    | step k env =>
      simp only [usersLts, Option.bind_eq_bind, Option.bind_eq_some_iff, Option.some.injEq] at hstep
      obtain ⟨call, hcall, effect, heffect, rfl⟩ := hstep
      exact h.after hcall hok heffect
    | expire key =>
      cases hstep
      refine ⟨h.stored, ?_, fun k call hcall =>
        (h.calls k call hcall).mono (List.Subset.refl _) (List.Subset.refl _)⟩
      intro user huser key' hkey
      show Function.update s.redis key none key' = none
      by_cases hk : key' = key
      · rw [hk, Function.update_self]
      · rw [Function.update_of_ne hk, h.uncached user huser key' hkey]

/-- While every negative entry is timely, a search started after `createUser` has
returned `kOk` returns what the source answered it, which is not `kNotFound`, and
a user of that name or id when the source could read it. -/
theorem user_not_hidden (hs : (usersLts coll κ).Reach (Timely p) s) {k : κ} {call : Call}
    (hcall : s.calls k = some call) {result : FindUserResult} {source : Option FindUserResult}
    (hreturned : call.position = .found result source) {user : Bytes × UserId}
    (hsince : user ∈ call.since) (hsearch : call.request.SearchesFor user) :
    FromSource coll s.users call.request result source := by
  have hcourse := ((visible_inductive.invariant hs).calls k call hcall).onCourse user hsince hsearch
  rw [hreturned] at hcourse
  exact hcourse.fromSource

end

/-! ## Runs -/

/-- Redis and the table empty, no calls. -/
private def quiet : State ℕ := ⟨fun _ => none, [], fun _ => none, []⟩

/-- Statements succeed; the next id is 7. -/
private def smooth : Env := ⟨{}, 7⟩

private def seekBob (k : ℕ) : Label ℕ := .start k (str "chat") (.findByUsername (str "bob"))

private def createBob (k : ℕ) : Label ℕ :=
  .start k (str "chat") (.createUser (str "bob") (str "hash") (str "Bob"))

/-- A search for `bob` misses; `bob` is created while its negative entry is on the
way; the entry arrives; the next search does not see `bob`. -/
theorem created_user_hidden :
    ∃ s, (usersLts id ℕ).Reachable s ∧ ∃ call, s.calls 2 = some call ∧
      call.request = .findByUsername (str "bob") ∧ (str "bob", 7) ∈ call.since ∧
      call.position = .found { status := .notFound } none ∧
      rowByUsername id s.users (str "bob") = some ⟨7, str "bob", str "hash", str "Bob"⟩ := by
  let call : Call := ⟨str "chat", .findByUsername (str "bob"), [(str "bob", 7)],
    .found { status := .notFound } none⟩
  obtain ⟨s, hs, htest⟩ := Lts.exists_reach_of_run (M := usersLts id ℕ) (s := quiet)
    (fun s => s.calls 2 = some call ∧
      rowByUsername id s.users (str "bob") = some ⟨7, str "bob", str "hash", str "Bob"⟩)
    [seekBob 0, .step 0 smooth, .step 0 smooth, createBob 1, .step 1 smooth, .step 1 smooth,
      .step 0 smooth, seekBob 2, .step 2 smooth]
    ⟨fun _ => rfl, rfl⟩ Lts.runOk_true (by decide +kernel)
  obtain ⟨hcall, hrow⟩ := of_decide_eq_true htest
  exact ⟨s, hs, call, hcall, rfl, List.mem_singleton_self _, rfl, hrow⟩

/-- The same calls with the entry stored before the creation's `DEL`. -/
theorem user_not_hidden_bob :
    ∃ s, (usersLts id ℕ).Reach (Timely (str "chat")) s ∧
      FromSource id s.users (.findByUsername (str "bob"))
        ⟨.ok, some ⟨7, str "bob", str "hash", str "Bob"⟩⟩
        (some ⟨.ok, some ⟨7, str "bob", str "hash", str "Bob"⟩⟩) := by
  let result : FindUserResult := ⟨.ok, some ⟨7, str "bob", str "hash", str "Bob"⟩⟩
  let call : Call := ⟨str "chat", .findByUsername (str "bob"), [(str "bob", 7)],
    .found result (some result)⟩
  let labels : List (Label ℕ) :=
    [seekBob 0, .step 0 smooth, .step 0 smooth, createBob 1, .step 1 smooth, .step 0 smooth,
      .step 1 smooth, seekBob 2, .step 2 smooth, .step 2 smooth]
  have hinit : (usersLts id ℕ).Init quiet := ⟨fun _ => rfl, rfl⟩
  have hok : (usersLts id ℕ).RunOk (Timely (str "chat")) quiet labels := by decide +kernel
  obtain ⟨s, hs, htest⟩ := Lts.exists_reach_of_run (fun s => s.calls 2 = some call) labels
    hinit hok (by decide +kernel)
  have hcall := of_decide_eq_true htest
  exact ⟨s, hs, user_not_hidden hs hcall rfl (List.mem_singleton_self _) rfl⟩

end ChatServer.Cache
