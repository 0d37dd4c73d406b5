import ChatServer.Db.GroupRepository
import ChatServer.Service.GroupService

/-!
# Using a group

`GroupRepository::findGroup` reads a row of `groups` into buffers of fixed size,
129 bytes for the name. `createGroup` accepts names of up to 64 code points, which
can be longer: such a group exists but cannot be found again, so no member can be
added and no message sent.

* `readGroup` — `ReadGroup` on a table;
* `addGroupMember_respects`, `sendGroupMessage_respects` — of what `findGroup`
  answers, the services use the status and the conversation only;
* `createGroup_creating` — what the services assume of `createGroup` is what its
  transaction does;
* `group_usable_iff` — which groups can be used.
-/

namespace ChatServer.Db

open Base

/-- A row of `groups`. -/
structure GroupRow where
  group : GroupRecord
  createdAt : Timestamp
  updatedAt : Timestamp
  deriving DecidableEq, Repr

/-- The table, with its primary key. -/
structure GroupTable (coll : Collation) where
  rows : List GroupRow
  nodup : (rows.map fun row => coll row.group.id).Nodup

variable {coll : Collation}

/-- The text columns of a row and the buffers of `ReadGroup`, with those of the times. -/
def groupColumns (fmt : TimeFormat) (row : GroupRow) : List Bound :=
  GroupTables.groupColumns row.group ++
    [⟨fmt.text row.createdAt, 32⟩, ⟨fmt.text row.updatedAt, 32⟩]

/-- `SELECT … FROM groups WHERE id=? LIMIT 1`. -/
def GroupTable.lookup (t : GroupTable coll) (groupId : Bytes) : Option GroupRow :=
  t.rows.find? fun row => coll row.group.id = coll groupId

/-- `ReadGroup`, when the statement is carried out. -/
def GroupTable.readGroup (fmt : TimeFormat) (t : GroupTable coll) (groupId : Bytes) : GroupResult :=
  match t.lookup groupId with
  | none => { status := .notFound }
  | some row =>
    if fits (groupColumns fmt) row then { status := .ok, group := some row.group }
    else { status := .queryFailed }

/-- The insert of `createGroup`; `none` for a duplicate key. -/
def GroupTable.insert (t : GroupTable coll) (row : GroupRow) : Option (GroupTable coll) :=
  if h : coll row.group.id ∈ t.rows.map fun row => coll row.group.id then none
  else
    some
      { rows := t.rows ++ [row]
        nodup := by
          rw [List.map_append]
          exact List.nodup_append_comm.mp (List.nodup_cons.mpr ⟨h, t.nodup⟩) }

/-- The table with another name for one group. -/
def GroupTable.rename (t : GroupTable coll) (groupId name : Bytes) : GroupTable coll where
  rows := t.rows.map fun row =>
    if coll row.group.id = coll groupId then { row with group := { row.group with name } } else row
  nodup := by
    have hids : ((t.rows.map fun row =>
        if coll row.group.id = coll groupId then { row with group := { row.group with name } }
        else row).map fun row => coll row.group.id) = t.rows.map fun row => coll row.group.id := by
      rw [List.map_map]
      refine List.map_congr_left fun row _ => ?_
      show coll (if _ then _ else row : GroupRow).group.id = coll row.group.id
      split <;> rfl
    rw [hids]
    exact t.nodup

namespace GroupTable

variable {t : GroupTable coll} {row : GroupRow} {groupId name : Bytes} {fmt : TimeFormat}

/-- A row is found under its id. -/
theorem lookup_of_mem (h : row ∈ t.rows) : t.lookup row.group.id = some row := by
  have hfind : (t.lookup row.group.id).isSome = true :=
    List.find?_isSome.mpr ⟨row, h, decide_eq_true rfl⟩
  obtain ⟨found, hfound⟩ := Option.isSome_iff_exists.mp hfind
  have hid : coll found.group.id = coll row.group.id := by simpa using List.find?_some hfound
  rw [hfound, List.inj_on_of_nodup_map t.nodup (List.mem_of_find?_eq_some hfound) h hid]

theorem mem_insert {t' : GroupTable coll} (h : t.insert row = some t') : row ∈ t'.rows := by
  unfold insert at h
  split at h
  · cases h
  · obtain rfl := Option.some.inj h
    exact List.mem_append_right _ List.mem_cons_self

theorem lookup_rename (t : GroupTable coll) (groupId name id : Bytes) :
    (t.rename groupId name).lookup id = (t.lookup id).map fun row =>
      if coll row.group.id = coll groupId then { row with group := { row.group with name } }
      else row := by
  unfold lookup rename
  rw [List.find?_map]
  congr 2
  funext row
  show decide (coll (if _ then _ else row : GroupRow).group.id = coll id) = _
  split <;> rfl

/-- The group is read if its columns fit. -/
theorem readGroup_of_mem (h : row ∈ t.rows) (fmt : TimeFormat) :
    t.readGroup fmt row.group.id =
      if fits (groupColumns fmt) row then { status := .ok, group := some row.group }
      else { status := .queryFailed } := by
  unfold readGroup
  rw [lookup_of_mem h]

end GroupTable

/-- Only the name can be too long for its buffer, the ids being short. -/
theorem fits_iff_name (fmt : TimeFormat) {row : GroupRow} (hid : row.group.id.length ≤ 65)
    (hconversation : row.group.conversationId.length ≤ 65) :
    fits (groupColumns fmt) row = true ↔ row.group.name.length ≤ 129 := by
  have hcreated := fmt.length_text row.createdAt
  have hupdated := fmt.length_text row.updatedAt
  rw [fits_iff]
  constructor
  · intro h
    exact h ⟨row.group.name, 129⟩ (by simp [groupColumns, GroupTables.groupColumns])
  · intro h b hb
    simp only [groupColumns, GroupTables.groupColumns, List.cons_append, List.nil_append,
      List.mem_cons, List.not_mem_nil, or_false] at hb
    rcases hb with rfl | rfl | rfl | rfl | rfl
    · exact hid
    · exact h
    · exact hconversation
    · show (fmt.text row.createdAt).length ≤ 32
      omega
    · show (fmt.text row.updatedAt).length ≤ 32
      omega

end ChatServer.Db

namespace ChatServer.Service

open Base Db Codec

/-! ## What the services ask the database -/

section

variable {coll : Collation}

/-- The answers while `t` is the table of groups. -/
def reading (fmt : TimeFormat) (t : GroupTable coll) (env : ∀ γ, Call γ → γ → Prop) :
    ∀ γ, Call γ → γ → Prop
  | _, .findGroup groupId, r => r = t.readGroup fmt groupId
  | γ, op, r => env γ op r

/-- The answers during a call that turns the table `t` into `t'`; `getrandom`
fills its buffer. -/
def creating (t t' : GroupTable coll) (env : ∀ γ, Call γ → γ → Prop) : ∀ γ, Call γ → γ → Prop
  | _, .createGroup group _, r =>
    r.status = .ok → r.group = some group ∧ ∃ now, t.insert ⟨group, now, now⟩ = some t'
  | _, .getRandom count, r => ∀ bytes ∈ r, bytes.length = count
  | γ, op, r => env γ op r

/-- The transaction of `createGroup` answers so, where the groups of the tables are those
of `t`. -/
theorem createGroup_creating {d : GroupDb} {i : Nat} (hidle : d.txn i = none)
    {t : GroupTable coll} (ht : t.rows.map (·.group) = d.committed.groups)
    (env : ∀ γ, Call γ → γ → Prop) (group : GroupRecord) (members : List GroupMemberRecord)
    (now : Timestamp) :
    (GroupRepository.createGroup group members).Leaves (GroupDb.sees coll i)
      (fun r ds => ∀ d' ∈ ds, ∃ t' : GroupTable coll,
        creating t t' env _ (.createGroup group members) r ∧
          (r.status = .ok → t'.rows.map (·.group) = d'.committed.groups)) {d} := by
  refine (GroupRepository.createGroup_leaves hidle group members).mono fun r ds hr d' hd => ?_
  by_cases hok : r.status = .ok
  · obtain ⟨hgroup, hall⟩ := hr hok
    obtain ⟨hnew, hgroups⟩ := hall d' hd
    have hfresh : coll group.id ∉ t.rows.map fun row => coll row.group.id := by
      intro hmem
      obtain ⟨row, hrow, hid⟩ := List.mem_map.mp hmem
      have hold : row.group ∈ d.committed.groups := ht ▸ List.mem_map_of_mem hrow
      exact List.filter_eq_nil_iff.mp hnew _ hold (decide_eq_true hid)
    refine ⟨_, fun _ => ⟨hgroup, now, dif_neg hfresh⟩, fun _ => ?_⟩
    rw [hgroups, ← ht]
    exact List.map_append
  · exact ⟨t, fun h => absurd h hok, fun h => absurd h hok⟩

end

/-- Answers of `findGroup` with the same status and the same conversation; other
answers are alike only if they are equal. -/
def AlikeGroup : ∀ γ, Call γ → γ → γ → Prop
  | _, .findGroup _, r, r' =>
    r.status = r'.status ∧ r.group.map (·.conversationId) = r'.group.map (·.conversationId)
  | _, _, r, r' => r = r'

namespace GroupService

/-- Calls other than `findGroup`: answers that are alike are equal. -/
theorem respects_call {γ α : Type} {op : Call γ} {f : γ → Action α}
    (hop : ∀ r r', AlikeGroup γ op r r' → r = r') (hf : ∀ r, (f r).Respects AlikeGroup) :
    (Prog.perform op >>= f).Respects AlikeGroup :=
  .call hf fun r r' h => by rw [hop r r' h]

theorem authenticated_respects (conn : ConnId) :
    (getAuthenticatedSession conn).Respects AlikeGroup :=
  respects_call (fun _ _ h => h) fun _ => trivial

theorem userMissing_respects (userId : UserId) : (userMissing userId).Respects AlikeGroup :=
  respects_call (fun _ _ h => h) fun _ => trivial

theorem addGroupMember_respects (conn : ConnId) (req : AddGroupMemberRequest) :
    (addGroupMember conn req).Respects AlikeGroup := by
  refine .bind (authenticated_respects conn) fun session => ?_
  split
  next session =>
    split
    · trivial
    refine .ite trivial (.bind (userMissing_respects _) fun missing => ?_)
    split
    · trivial
    refine .call (fun group => ?_) fun group group' halike => ?_
    · refine .ite trivial (.ite trivial ?_)
      refine respects_call (fun _ _ h => h) fun members => .ite trivial ?_
      split
      · refine .ite trivial (respects_call (fun _ _ h => h) fun added => .ite trivial ?_)
        split <;> trivial
      · trivial
    · -- of the group itself only its presence is looked at
      have hnone : group.group = none ↔ group'.group = none := by
        rw [← Option.map_eq_none_iff (f := GroupRecord.conversationId), halike.2,
          Option.map_eq_none_iff]
      simp only [halike.1, hnone]
  next => trivial

theorem deliverTo_respects (w : Wiring) (session : ConnectionSession)
    (req : SendGroupMessageRequest) (conversationId : Bytes) (now : Timestamp) (u : UserId) :
    (deliverTo w session req conversationId now u).Respects AlikeGroup := by
  refine respects_call (fun _ _ h => h) fun random => respects_call (fun _ _ h => h) fun seq =>
    respects_call (fun _ _ h => h) fun created => ?_
  split
  · trivial
  · exact .ite trivial (respects_call (fun _ _ h => h) fun _ => trivial)

theorem fanOut_respects (w : Wiring) (session : ConnectionSession)
    (req : SendGroupMessageRequest) (conversationId : Bytes) (now : Timestamp)
    (recipients : List UserId) :
    (fanOut w session req conversationId now recipients).Respects AlikeGroup := by
  induction recipients with
  | nil => trivial
  | cons u rest ih =>
    refine .bind (deliverTo_respects w session req conversationId now u) fun delivery => ?_
    cases delivery with
    | error e => trivial
    | ok delivery => exact .bind ih fun _ => trivial

theorem sendGroupMessage_respects (w : Wiring) (conn : ConnId) (req : SendGroupMessageRequest) :
    (sendGroupMessage w conn req).Respects AlikeGroup := by
  refine .bind (authenticated_respects conn) fun session => ?_
  split
  next session =>
    split
    · trivial
    split
    · trivial
    split
    · trivial
    refine .call (fun found => .ite trivial ?_) fun found found' halike => ?_
    · split
      · refine respects_call (fun _ _ h => h) fun members => .ite trivial (.ite trivial ?_)
        refine respects_call (fun _ _ h => h) fun now =>
          .bind (fanOut_respects w session req _ now _) fun deliveries => ?_
        split <;> trivial
      · trivial
    · -- of the group itself only the conversation is used
      obtain ⟨status, group⟩ := found
      obtain ⟨status', group'⟩ := found'
      obtain ⟨hstatus, hgroup⟩ := halike
      obtain rfl : status = status' := hstatus
      cases group with
      | none =>
        cases group' with
        | none => rfl
        | some g' => cases hgroup
      | some g =>
        cases group' with
        | none => cases hgroup
        | some g' =>
          have hconversation : g.conversationId = g'.conversationId := Option.some.inj hgroup
          by_cases hok : status = .ok
          · have hfilter : ∀ g : GroupRecord,
                (some g).filter (fun _ => status = .ok) = some g := by
              intro g
              simp [Option.filter, hok]
            simp only [hfilter, hconversation]
          · simp [hok]
  next => trivial

/-! ## Creating a group -/

theorem mapRepositoryError_ne_ok (status : RepositoryStatus) : mapRepositoryError status ≠ .ok := by
  cases status <;> exact nofun

theorem userError_ne_ok (status : RepositoryStatus) : userError status ≠ .ok := by
  unfold userError
  split
  · exact nofun
  · exact mapRepositoryError_ne_ok status

section

variable {coll : Collation} {t t' : GroupTable coll} {env : ∀ γ, Call γ → γ → Prop}

/-- What a successful `createGroup` leaves. -/
def Created (t t' : GroupTable coll) (req : CreateGroupRequest) (r : CreateGroupResult) : Prop :=
  r.code = .ok → ∃ g now, r.group = some g ∧ g.name = req.name ∧ g.id.length ≤ 28 ∧
    g.conversationId = buildGroupConversationId g.id ∧ t.insert ⟨g, now, now⟩ = some t'

theorem length_flatMap_hexPad (bytes : Bytes) :
    (bytes.flatMap fun b => hexPad 2 b.toNat).length = 2 * bytes.length := by
  induction bytes with
  | nil => rfl
  | cons b rest ih =>
    rw [List.flatMap_cons, List.length_append, hexPad_length, ih, List.length_cons]
    omega

/-- A group id has `grp_` and at most 24 digits. -/
theorem buildGroupId_short : buildGroupId.Ensures (creating t t' env) (·.length ≤ 28) := by
  refine .bind (Q := fun random => random.length ≤ 24) (.call fun bytes hbytes => .pure ?_)
    fun random hrandom => .pure ?_
  · rw [length_flatMap_hexPad]
    cases bytes with
    | none => exact Nat.zero_le _
    | some bytes =>
      have hlength : bytes.length = 12 := hbytes bytes rfl
      show 2 * bytes.length ≤ 24
      omega
  · split
    · exact Nat.zero_le _
    · rw [List.length_append]
      show 4 + random.length ≤ 28
      omega

theorem createGroup_ensures (conn : ConnId) (req : CreateGroupRequest) :
    (createGroup conn req).Ensures (creating t t' env) (Created t t' req) := by
  refine .after fun session => ?_
  split
  next session =>
    split
    · exact .pure fun h => nomatch h
    refine .exit (fun h => nomatch h) fun _ => ?_
    split
    next memberIds _ =>
      refine .after fun missing => ?_
      split
      · exact .pure fun h => absurd h (userError_ne_ok _)
      refine .bind buildGroupId_short fun id hid => .exit (fun h => nomatch h)
        fun _ => .call fun created hcreated => ?_
      split
      next group hgroup =>
        obtain ⟨hsome, hok⟩ := Option.filter_eq_some_iff.mp hgroup
        obtain ⟨hmade, now, hinsert⟩ := hcreated (of_decide_eq_true hok)
        obtain rfl := Option.some.inj (hmade.symm.trans hsome)
        exact .pure fun _ => ⟨_, now, rfl, rfl, hid, rfl, hinsert⟩
      · exact .pure fun h => absurd h (mapRepositoryError_ne_ok _)
    · exact .pure fun h => nomatch h
  next => exact .pure fun h => nomatch h

end

/-! ## A group that cannot be read -/

section

variable {coll : Collation} {t : GroupTable coll} {env : ∀ γ, Call γ → γ → Prop} {fmt : TimeFormat}

theorem addGroupMember_refused (conn : ConnId) {req : AddGroupMemberRequest}
    (h : t.readGroup fmt req.groupId = { status := .queryFailed }) :
    (addGroupMember conn req).Ensures (reading fmt t env) (·.code ≠ .ok) := by
  refine .after fun session => ?_
  split
  next session =>
    split
    · exact .pure nofun
    refine .exit nofun fun _ => .after fun missing => ?_
    split
    · exact .pure (userError_ne_ok _)
    refine .call fun group hgroup => ?_
    obtain rfl : group = { status := .queryFailed } := Eq.trans hgroup h
    exact .pure nofun
  next => exact .pure nofun

theorem sendGroupMessage_refused (w : Wiring) (conn : ConnId) {req : SendGroupMessageRequest}
    (h : t.readGroup fmt req.groupId = { status := .queryFailed }) :
    (sendGroupMessage w conn req).Ensures (reading fmt t env) (·.code ≠ .ok) := by
  refine .after fun session => ?_
  split
  next session =>
    split
    · exact .pure nofun
    split
    · exact .pure nofun
    split
    · refine .pure ?_
      show (if _ then _ else _ : ErrorCode) ≠ .ok
      split <;> exact nofun
    refine .call fun found hfound => ?_
    obtain rfl : found = { status := .queryFailed } := Eq.trans hfound h
    exact .pure nofun
  next => exact .pure nofun

/-- A table and the same table with another name for a group give answers that are
alike, if both names can be read. -/
theorem reading_alike {row : GroupRow} {name : Bytes} (hrow : row ∈ t.rows)
    (hfits : fits (groupColumns fmt) row = true)
    (hfits' : fits (groupColumns fmt) { row with group := { row.group with name } } = true)
    (id : Bytes) :
    AlikeGroup _ (.findGroup id) (t.readGroup fmt id)
      ((t.rename row.group.id name).readGroup fmt id) := by
  unfold GroupTable.readGroup
  rw [GroupTable.lookup_rename]
  cases hfound : t.lookup id with
  | none => exact ⟨rfl, rfl⟩
  | some found =>
    by_cases hid : coll found.group.id = coll row.group.id
    · have hmem : found ∈ t.rows := List.mem_of_find?_eq_some hfound
      obtain rfl := List.inj_on_of_nodup_map t.nodup hmem hrow hid
      rw [Option.map_some, if_pos rfl]
      simp only [hfits, hfits']
      exact ⟨rfl, rfl⟩
    · rw [Option.map_some, if_neg hid]
      exact ⟨rfl, rfl⟩

/-- Tables with answers that are alike serve a program in the same way. -/
theorem reading_answer {t₂ : GroupTable coll}
    (halike : ∀ id, AlikeGroup _ (.findGroup id) (t.readGroup fmt id) (t₂.readGroup fmt id)) :
    ∀ γ op r, reading fmt t env γ op r →
      ∃ r', reading fmt t₂ env γ op r' ∧ AlikeGroup γ op r r' := by
  intro γ op r hr
  cases op with
  | findGroup id =>
    obtain rfl : r = t.readGroup fmt id := hr
    exact ⟨_, rfl, halike id⟩
  | _ => exact ⟨r, hr, rfl⟩

theorem yields_congr {α : Type} {p : Action α} {t₂ : GroupTable coll} {outcome : Option α}
    (hp : p.Respects AlikeGroup)
    (halike : ∀ id, AlikeGroup _ (.findGroup id) (t.readGroup fmt id) (t₂.readGroup fmt id)) :
    p.Yields (reading fmt t env) outcome ↔ p.Yields (reading fmt t₂ env) outcome :=
  ⟨hp.yields (reading_answer halike),
    hp.yields (reading_answer fun id => ⟨(halike id).1.symm, (halike id).2.symm⟩)⟩

end

/-- `findGroup` returns the group, and `addGroupMember` and `sendGroupMessage`
answer as if it had any other name of at most 64 bytes. -/
structure Usable (coll : Collation) (fmt : TimeFormat) (later : GroupTable coll) (g : GroupRecord) :
    Prop where
  found : later.readGroup fmt g.id = { status := .ok, group := some g }
  addMember : ∀ name : Bytes, name.length ≤ 64 → ∀ env conn req outcome,
    (addGroupMember conn req).Yields (reading fmt later env) outcome ↔
      (addGroupMember conn req).Yields (reading fmt (later.rename g.id name) env) outcome
  sendMessage : ∀ name : Bytes, name.length ≤ 64 → ∀ env w conn req outcome,
    (sendGroupMessage w conn req).Yields (reading fmt later env) outcome ↔
      (sendGroupMessage w conn req).Yields (reading fmt (later.rename g.id name) env) outcome

/-- If `createGroup` answers OK, then from then on the group can be used exactly if
its name has at most 129 bytes. Otherwise nobody can add a member to it or send a
message to it. -/
theorem group_usable_iff {coll : Collation} {t t' : GroupTable coll}
    {env : ∀ γ, Call γ → γ → Prop} {conn : ConnId} {req : CreateGroupRequest}
    {r : CreateGroupResult}
    (hrun : (createGroup conn req).Yields (creating t t' env) (some r)) (hok : r.code = .ok) :
    ∃ g, r.group = some g ∧ g.name = req.name ∧ ∀ (fmt : TimeFormat) (later : GroupTable coll),
      t'.rows ⊆ later.rows →
        (Usable coll fmt later g ↔ req.name.length ≤ 129) ∧
        (129 < req.name.length → ∀ env conn,
          (∀ req', req'.groupId = g.id →
            (addGroupMember conn req').Ensures (reading fmt later env) (·.code ≠ .ok)) ∧
          ∀ w req', req'.groupId = g.id →
            (sendGroupMessage w conn req').Ensures (reading fmt later env) (·.code ≠ .ok)) := by
  obtain ⟨g, now, hgroup, hname, hid, hconversation, hinsert⟩ :=
    (createGroup_ensures conn req).of_yields hrun hok
  refine ⟨g, hgroup, hname, fun fmt later hlater => ?_⟩
  have hmem : (⟨g, now, now⟩ : GroupRow) ∈ later.rows := hlater (GroupTable.mem_insert hinsert)
  have hread := GroupTable.readGroup_of_mem hmem fmt
  -- an id that the server makes leaves room for the conversation id
  have hlength : g.conversationId.length ≤ 65 := by
    rw [hconversation, buildGroupConversationId, List.length_append]
    show 6 + g.id.length ≤ 65
    omega
  -- the other columns fit, so the name decides
  have hfits : ∀ name : Bytes,
      fits (groupColumns fmt) ⟨{ g with name }, now, now⟩ = true ↔ name.length ≤ 129 :=
    fun name => fits_iff_name fmt (show g.id.length ≤ 65 by omega) hlength
  rw [← hname]
  constructor
  · constructor
    · intro husable
      by_contra hlong
      have hno := husable.found
      rw [hread, if_neg (mt (hfits g.name).mp hlong)] at hno
      cases hno
    · intro hshort
      have halike : ∀ name : Bytes, name.length ≤ 64 → ∀ id, AlikeGroup _ (.findGroup id)
          (later.readGroup fmt id) ((later.rename g.id name).readGroup fmt id) :=
        fun name hle => reading_alike hmem ((hfits g.name).mpr hshort)
          ((hfits name).mpr (by omega))
      refine ⟨?_, fun name hle _ conn req _ => ?_, fun name hle _ w conn req _ => ?_⟩
      · rw [hread, if_pos ((hfits g.name).mpr hshort)]
      · exact yields_congr (addGroupMember_respects conn req) (halike name hle)
      · exact yields_congr (sendGroupMessage_respects w conn req) (halike name hle)
  · intro hlong env conn
    have hno : later.readGroup fmt g.id = { status := .queryFailed } := by
      rw [hread, if_neg (mt (hfits g.name).mp (by omega))]
    constructor
    · intro req' hreq
      exact addGroupMember_refused conn (by rw [hreq]; exact hno)
    · intro w req' hreq
      exact sendGroupMessage_refused w conn (by rw [hreq]; exact hno)

/-! ## A name of 44 code points -/

deriving instance DecidableEq for CreateGroupResult

/-- The group that user 1 creates. -/
def ownersGroup (name : Bytes) : GroupRecord :=
  { id := str "grp_000000000000000000000000", name, ownerId := 1
    conversationId := str "gconv_grp_000000000000000000000000" }

/-- The answers meanwhile. -/
def ownerCreates (name : Bytes) : ∀ γ, Call γ → Option γ
  | _, .getSession _ => some (some ⟨true, 1, str "alice", []⟩)
  | _, .findById userId => some ⟨.ok, some ⟨userId, str "alice", str "hash", str "Alice"⟩⟩
  | _, .getRandom count => some (some (List.replicate count 0))
  | _, .createGroup group _ => if group = ownersGroup name then some ⟨.ok, some group⟩ else none
  | _, _ => none

/-- The empty table, and the one with the group. -/
def noGroups : GroupTable id := ⟨[], List.nodup_nil⟩

def ownersTable (name : Bytes) : GroupTable id :=
  ⟨[⟨ownersGroup name, 5, 5⟩], List.nodup_singleton _⟩

theorem ownerCreates_admitted (name : Bytes) : ∀ γ op, ∀ r ∈ ownerCreates name γ op,
    creating noGroups (ownersTable name) (fun _ _ _ => True) γ op r := by
  intro γ op r hr
  cases op with
  | getRandom count =>
    obtain rfl := Option.some.inj hr
    intro bytes hbytes
    obtain rfl := Option.some.inj hbytes
    exact List.length_replicate
  | createGroup group members =>
    obtain ⟨rfl, hr⟩ := Option.ite_none_right_eq_some.mp hr
    obtain rfl := Option.some.inj hr
    exact fun _ => ⟨rfl, 5, rfl⟩
  | _ => trivial

/-- What `createGroup` answers. -/
def ownersResult (name : Bytes) : CreateGroupResult :=
  { code := .ok, message := str "group created", group := some (ownersGroup name)
    memberIds := [1] }

/-- The client library's text of a fixed time. -/
def newYear : TimeFormat := ⟨fun _ => str "2024-01-01 00:00:00", fun _ => rfl⟩

/-- A group with a name of 44 code points, 132 bytes, is created and cannot be
found. -/
theorem long_name_unusable :
    (createGroup 7 ⟨Validator.wideText 44, []⟩).Yields
        (creating noGroups (ownersTable (Validator.wideText 44)) fun _ _ _ => True)
        (some (ownersResult (Validator.wideText 44))) ∧
      (ownersTable (Validator.wideText 44)).readGroup newYear (ownersGroup []).id =
        { status := .queryFailed } :=
  ⟨Prog.yields_of_run (ownerCreates_admitted _) (by decide +kernel), by decide +kernel⟩

/-- One code point less and it can be used. -/
theorem group_usable_43 :
    Usable id newYear (ownersTable (Validator.wideText 43))
      (ownersGroup (Validator.wideText 43)) := by
  have hrun : (createGroup 7 ⟨Validator.wideText 43, []⟩).Yields
      (creating noGroups (ownersTable (Validator.wideText 43)) fun _ _ _ => True)
      (some (ownersResult (Validator.wideText 43))) :=
    Prog.yields_of_run (ownerCreates_admitted _) (by decide +kernel)
  obtain ⟨g, hg, -, huse⟩ := group_usable_iff hrun rfl
  obtain rfl := Option.some.inj hg
  exact (huse newYear (ownersTable (Validator.wideText 43)) (List.Subset.refl _)).1.mpr
    (by rw [Validator.length_wideText])

end GroupService

end ChatServer.Service
