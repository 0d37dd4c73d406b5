import Mathlib.Algebra.GroupWithZero.Nat
import Mathlib.Data.List.Sort
import Mathlib.Order.Basic

/-!
# Keyset pagination

Rows of a table are handed out page by page in the order of their keys; a page
starts after the key of the last row of the page before.

* `remaining` — the rows after a key, in order; `page` is its beginning;
* `page_covers` — a page leaves out no row up to its own last one;
* `remaining_advance` — after a page, what remains is the rest of what remained;
* `walk_eq_take` — the pages of a walk over an unchanged table, put together.
-/

namespace Base.Keyset

variable {α κ : Type} [LinearOrder κ] (key : α → κ)

/-- The key lies after the cursor; `none` is the start. -/
def After (cursor : Option κ) (k : κ) : Prop := ∀ c ∈ cursor, c < k

instance (cursor : Option κ) (k : κ) : Decidable (After cursor k) :=
  match cursor with
  | none => isTrue fun _ hc => nomatch hc
  | some c => decidable_of_iff (c < k) <| by simp [After]

/-- The rows after the cursor, in the order of their keys. -/
def remaining (cursor : Option κ) (rows : List α) : List α :=
  (rows.filter fun a => After cursor (key a)).insertionSort fun a b => key a ≤ key b

def page (cursor : Option κ) (limit : Nat) (rows : List α) : List α :=
  (remaining key cursor rows).take limit

/-- There are rows after the page. -/
def more (cursor : Option κ) (limit : Nat) (rows : List α) : Bool :=
  limit < (remaining key cursor rows).length

/-- The pages of a walk over an unchanged table, with these limits. It ends when
a page comes back empty. -/
def walk : List Nat → Option κ → List α → List α
  | [], _, _ => []
  | limit :: limits, cursor, rows =>
    page key cursor limit rows ++
      match (page key cursor limit rows).getLast? with
      | none => []
      | some last => walk limits (some (key last)) rows

/-- No key stands for two rows. -/
def Keyed (rows : List α) : Prop := (rows.map key).Nodup

variable {key} {cursor : Option κ} {rows : List α} {limit : Nat} {a b : α}

theorem mem_remaining : a ∈ remaining key cursor rows ↔ a ∈ rows ∧ After cursor (key a) := by
  unfold remaining
  rw [List.mem_insertionSort, List.mem_filter, decide_eq_true_eq]

/-- Without a cursor everything remains. -/
theorem length_remaining_none : (remaining key none rows).length = rows.length := by
  have hall : rows.filter (fun a => After none (key a)) = rows :=
    List.filter_eq_self.mpr fun a _ => decide_eq_true fun _ hc => nomatch hc
  rw [remaining, List.length_insertionSort, hall]

theorem mem_of_mem_page (h : a ∈ page key cursor limit rows) :
    a ∈ rows ∧ After cursor (key a) := mem_remaining.mp (List.mem_of_mem_take h)

/-- What remains is in strict order. -/
theorem remaining_sorted (h : Keyed key rows) (cursor : Option κ) :
    (remaining key cursor rows).Pairwise fun a b => key a < key b := by
  have hle : (remaining key cursor rows).Pairwise fun a b => key a ≤ key b := by
    have : Std.Total fun a b : α => key a ≤ key b := ⟨fun a b => le_total (key a) (key b)⟩
    have : IsTrans α fun a b => key a ≤ key b := ⟨fun _ _ _ => le_trans⟩
    exact List.pairwise_insertionSort _ _
  have hne : (remaining key cursor rows).Pairwise fun a b => key a ≠ key b := by
    have hfilter : ((rows.filter fun a => After cursor (key a)).map key).Nodup :=
      h.sublist (List.filter_sublist.map key)
    have hperm := (List.perm_insertionSort (fun a b => key a ≤ key b)
      (rows.filter fun a => After cursor (key a))).map key
    exact List.pairwise_map.mp (hperm.nodup_iff.mpr hfilter)
  exact (hle.and hne).imp fun hab => lt_of_le_of_ne hab.1 hab.2

/-- The page and what is left after it. -/
theorem page_append (cursor : Option κ) (limit : Nat) (rows : List α) :
    page key cursor limit rows ++ (remaining key cursor rows).drop limit =
      remaining key cursor rows := List.take_append_drop limit _

theorem lt_of_mem_page_of_mem_drop (h : Keyed key rows) (ha : a ∈ page key cursor limit rows)
    (hb : b ∈ (remaining key cursor rows).drop limit) : key a < key b := by
  have hsorted := remaining_sorted h cursor
  rw [← page_append cursor limit rows, List.pairwise_append] at hsorted
  exact hsorted.2.2 a ha b hb

/-- A page leaves out no row up to one that it has. -/
theorem page_covers (h : Keyed key rows) (ha : a ∈ rows) (hafter : After cursor (key a))
    (hb : b ∈ page key cursor limit rows) (hab : key a ≤ key b) :
    a ∈ page key cursor limit rows := by
  have hmem : a ∈ remaining key cursor rows := mem_remaining.mpr ⟨ha, hafter⟩
  rw [← page_append cursor limit rows, List.mem_append] at hmem
  rcases hmem with hpage | hdrop
  · exact hpage
  · exact absurd (lt_of_mem_page_of_mem_drop h hb hdrop) hab.not_gt

/-- The last page has everything that was left. -/
theorem mem_page_of_not_more (hmore : more key cursor limit rows = false) (ha : a ∈ rows)
    (hafter : After cursor (key a)) : a ∈ page key cursor limit rows := by
  have hlength : (remaining key cursor rows).length ≤ limit := by
    simpa [more] using hmore
  rw [page, List.take_of_length_le hlength]
  exact mem_remaining.mpr ⟨ha, hafter⟩

/-- The last row of a page has its largest key. -/
theorem le_last (h : Keyed key rows) {last : α}
    (hlast : (page key cursor limit rows).getLast? = some last)
    (ha : a ∈ page key cursor limit rows) : key a ≤ key last := by
  obtain ⟨front, hpage⟩ := List.getLast?_eq_some_iff.mp hlast
  have hsorted : (page key cursor limit rows).Pairwise fun a b => key a < key b :=
    (remaining_sorted h cursor).sublist (List.take_sublist limit _)
  rw [hpage] at ha hsorted
  rcases List.mem_append.mp ha with hfront | hself
  · exact ((List.pairwise_append.mp hsorted).2.2 a hfront last (List.mem_singleton_self _)).le
  · rw [List.mem_singleton.mp hself]

/-- With the key of its last row as cursor, the walk goes on where a page ended. -/
theorem remaining_advance (h : Keyed key rows) {last : α}
    (hlast : (page key cursor limit rows).getLast? = some last) :
    remaining key (some (key last)) rows = (remaining key cursor rows).drop limit := by
  have hmem := List.mem_of_getLast? hlast
  have hsorted := remaining_sorted h cursor
  have : Std.Antisymm fun a b : α => key a < key b := ⟨fun _ _ hab hba => absurd hab hba.asymm⟩
  have : Std.Irrefl fun a b : α => key a < key b := ⟨fun _ => lt_irrefl _⟩
  refine (remaining_sorted h _).eq_of_mem_iff (hsorted.sublist (List.drop_sublist _ _)) fun a => ?_
  rw [mem_remaining]
  constructor
  · rintro ⟨ha, hafter⟩
    have hlt : key last < key a := hafter _ rfl
    -- the row was there before, and it is not on the page
    have hbefore : After cursor (key a) := fun c hc => ((mem_of_mem_page hmem).2 c hc).trans hlt
    have hold : a ∈ remaining key cursor rows := mem_remaining.mpr ⟨ha, hbefore⟩
    rw [← page_append cursor limit rows, List.mem_append] at hold
    exact hold.resolve_left fun hpage => absurd (le_last h hlast hpage) hlt.not_ge
  · intro hdrop
    refine ⟨(mem_remaining.mp (List.mem_of_mem_drop hdrop)).1, fun c hc => ?_⟩
    obtain rfl := Option.some.inj hc
    exact lt_of_mem_page_of_mem_drop h hmem hdrop

/-- A walk hands out the rows in the order of their keys, as many as its limits
allow. -/
theorem walk_eq_take (h : Keyed key rows) {limits : List Nat} (hpos : ∀ l ∈ limits, 0 < l)
    (cursor : Option κ) :
    walk key limits cursor rows = (remaining key cursor rows).take limits.sum := by
  induction limits generalizing cursor with
  | nil => simp [walk]
  | cons limit limits ih =>
    obtain ⟨hlimit, hrest⟩ := List.forall_mem_cons.mp hpos
    rw [walk, List.sum_cons, List.take_add]
    cases hlast : (page key cursor limit rows).getLast? with
    | none =>
      -- an empty page: nothing remained
      have hnil : page key cursor limit rows = [] := List.getLast?_eq_none_iff.mp hlast
      have hempty : remaining key cursor rows = [] := by
        rcases List.take_eq_nil_iff.mp hnil with hzero | hempty
        · omega
        · exact hempty
      simp [hnil, hempty]
    | some last =>
      show _ ++ walk key limits (some (key last)) rows = _
      rw [ih hrest, remaining_advance h hlast]
      rfl

/-- In a list in strict order, what holds of all pairs holds of two rows in the
order of their keys. -/
theorem rel_of_key_lt {R : α → α → Prop} {l : List α} (hR : l.Pairwise R)
    (hsorted : l.Pairwise fun a b => key a < key b) (ha : a ∈ l) (hb : b ∈ l)
    (hlt : key a < key b) : R a b := by
  induction l with
  | nil => cases ha
  | cons c l ih =>
    rw [List.pairwise_cons] at hR hsorted
    rcases List.mem_cons.mp ha with rfl | hal
    · rcases List.mem_cons.mp hb with rfl | hbl
      · exact absurd hlt (lt_irrefl _)
      · exact hR.1 b hbl
    · rcases List.mem_cons.mp hb with rfl | hbl
      · exact absurd hlt (hsorted.1 a hal).asymm
      · exact ih hR.2 hsorted.2 hal hbl

end Base.Keyset
