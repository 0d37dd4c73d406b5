import Mathlib.Data.List.Basic

/-!
# Well-formed UTF-8

The byte sequences of UTF-8 as a small automaton. Between characters the state
is `some []`; inside a character it lists the ranges the bytes still to come
must lie in; `none` is the dead state of an ill-formed sequence.

* `tails` — the ranges a lead byte asks for (Unicode, table 3-7);
* `run`, `WellFormed` — the automaton over a byte string;
* `wellFormed_append_iff` — a well-formed beginning can be dropped;
* `wellFormed_of_ascii`, `wellFormed_encode` — what is well formed;
* `wellFormed_iff`, `spell_injective` — the well-formed strings are the
  encodings of lists of scalar values, each of one list only.
-/

namespace Base.Utf8

/-- A closed range of bytes. -/
abbrev Range := UInt8 × UInt8

/-- What the bytes read so far still ask for. -/
abbrev State := Option (List Range)

/-- A continuation byte. -/
def tail : Range := (0x80, 0xBF)

/-- The ranges of the bytes after a lead byte. -/
def tails (lead : UInt8) : State :=
  if lead ≤ 0x7F then some []
  else if 0xC2 ≤ lead ∧ lead ≤ 0xDF then some [tail]
  else if lead = 0xE0 then some [(0xA0, 0xBF), tail]
  else if lead = 0xED then some [(0x80, 0x9F), tail]
  else if 0xE1 ≤ lead ∧ lead ≤ 0xEF then some [tail, tail]
  else if lead = 0xF0 then some [(0x90, 0xBF), tail, tail]
  else if 0xF1 ≤ lead ∧ lead ≤ 0xF3 then some [tail, tail, tail]
  else if lead = 0xF4 then some [(0x80, 0x8F), tail, tail]
  else none

/-- Read one byte. -/
def step : State → UInt8 → State
  | none, _ => none
  | some [], b => tails b
  | some (r :: rs), b => if r.1 ≤ b ∧ b ≤ r.2 then some rs else none

/-- Read a byte string. -/
def run (q : State) (s : List UInt8) : State := s.foldl step q

/-- The string is a sequence of complete characters. -/
def WellFormed (s : List UInt8) : Prop := run (some []) s = some []

instance (s : List UInt8) : Decidable (WellFormed s) :=
  inferInstanceAs (Decidable (run (some []) s = some []))

/-! ## Runs -/

@[simp] theorem run_nil (q : State) : run q [] = q := rfl

@[simp] theorem run_cons (q : State) (b : UInt8) (s : List UInt8) :
    run q (b :: s) = run (step q b) s := rfl

theorem run_append (q : State) (s t : List UInt8) : run q (s ++ t) = run (run q s) t :=
  List.foldl_append

/-- The dead state is never left. -/
@[simp] theorem run_none (s : List UInt8) : run none s = none := by
  induction s with
  | nil => rfl
  | cons b s ih => rw [run_cons]; exact ih

@[simp] theorem wellFormed_nil : WellFormed [] := rfl

variable {lo hi n x y c : Nat} {s t : List UInt8} {b : UInt8} {q : State}

/-- A well-formed beginning leaves the automaton between characters. -/
theorem wellFormed_append_iff (hs : WellFormed s) (t : List UInt8) :
    WellFormed (s ++ t) ↔ WellFormed t := by
  unfold WellFormed
  rw [run_append, hs]

theorem WellFormed.append (hs : WellFormed s) (ht : WellFormed t) :
    WellFormed (s ++ t) := (wellFormed_append_iff hs t).mpr ht

/-- A property of bytes can be checked value by value. -/
theorem forall_byte {P : UInt8 → Prop} (h : ∀ m : Fin 256, P (.ofNat m.val)) (b : UInt8) : P b := by
  have hb := h ⟨b.toNat, b.toNat_lt⟩
  rwa [UInt8.ofNat_toNat] at hb

/-! ## ASCII -/

/-- All bytes are below 128. -/
def Ascii (s : List UInt8) : Prop := ∀ b ∈ s, b ≤ 0x7F

instance (s : List UInt8) : Decidable (Ascii s) := List.decidableBAll _ s

theorem ascii_nil : Ascii [] := List.forall_mem_nil _

theorem ascii_cons_iff : Ascii (b :: s) ↔ b ≤ 0x7F ∧ Ascii s :=
  List.forall_mem_cons

theorem ascii_append_iff : Ascii (s ++ t) ↔ Ascii s ∧ Ascii t :=
  List.forall_mem_append

/-- The ranges still to come hold no ASCII byte. -/
def Proper (q : State) : Prop := ∀ rs, q = some rs → ∀ r ∈ rs, 0x80 ≤ r.1

theorem proper_start : Proper (some []) := by
  intro rs hrs r hr
  cases hrs
  cases hr

private theorem proper_tails (lead : UInt8) : Proper (tails lead) := by
  have hlead : (tails lead).all (fun rs => rs.all fun r => 0x80 ≤ r.1) = true := by
    revert lead
    exact forall_byte (by decide +kernel)
  intro rs hrs r hr
  rw [hrs] at hlead
  simpa using List.all_eq_true.mp hlead r hr

theorem Proper.step (h : Proper q) (b : UInt8) : Proper (step q b) := by
  match q with
  | none => exact fun rs hrs => nomatch hrs
  | some [] => exact proper_tails b
  | some (r :: rs) =>
    show Proper (if r.1 ≤ b ∧ b ≤ r.2 then some rs else none)
    split
    · intro rs' hrs'
      obtain rfl := Option.some.inj hrs'
      exact fun r' hr' => h _ rfl r' (List.mem_cons_of_mem _ hr')
    · exact fun rs' hrs' => nomatch hrs'

theorem Proper.run (h : Proper q) (s : List UInt8) : Proper (run q s) := by
  induction s generalizing q with
  | nil => exact h
  | cons b s ih => exact ih (h.step b)

/-- An ASCII byte is a character of its own, so it is wrong inside another. -/
theorem step_ascii (hb : b ≤ 0x7F) (hq : Proper q) :
    step q b = if q = some [] then some [] else none := by
  match q with
  | none => rfl
  | some [] => simp [Utf8.step, tails, hb]
  | some (r :: rs) =>
    have hr : 0x80 ≤ r.1 := hq _ rfl r List.mem_cons_self
    have hlt : ¬ r.1 ≤ b := by
      intro hle
      have h1 : (128 : Nat) ≤ r.1.toNat := hr
      have h2 : r.1.toNat ≤ b.toNat := hle
      have h3 : b.toNat ≤ 127 := hb
      omega
    simp [Utf8.step, hlt]

theorem run_ascii (hs : Ascii s) (hne : s ≠ []) (hq : Proper q) :
    run q s = if q = some [] then some [] else none := by
  induction s generalizing q with
  | nil => exact absurd rfl hne
  | cons b s ih =>
    obtain ⟨hb, htail⟩ := ascii_cons_iff.mp hs
    rw [run_cons, step_ascii hb hq]
    by_cases h : q = some []
    · rw [if_pos h]
      by_cases hlast : s = []
      · rw [hlast, run_nil]
      · rw [ih htail hlast proper_start, if_pos rfl]
    · rw [if_neg h, run_none]

theorem wellFormed_of_ascii (h : Ascii s) : WellFormed s := by
  by_cases hne : s = []
  · rw [hne]
    exact wellFormed_nil
  · exact (run_ascii h hne proper_start).trans (if_pos rfl)

/-- ASCII text after a string does not complete a character of it. -/
theorem wellFormed_append_ascii_iff (ht : Ascii t) : WellFormed (s ++ t) ↔ WellFormed s := by
  by_cases hne : t = []
  · rw [hne, List.append_nil]
  · unfold WellFormed
    rw [run_append, run_ascii ht hne (proper_start.run s)]
    simp

/-- Replacing ASCII bytes by ASCII text keeps a string as well or as ill
formed as it is. -/
theorem wellFormed_flatMap_iff {f : UInt8 → List UInt8}
    (hf : ∀ b, f b = [b] ∨ (b ≤ 0x7F ∧ f b ≠ [] ∧ Ascii (f b))) (s : List UInt8) :
    WellFormed (s.flatMap f) ↔ WellFormed s := by
  have hrun : ∀ (s : List UInt8) (q : State), Proper q → run q (s.flatMap f) = run q s := by
    intro s
    induction s with
    | nil => exact fun _ _ => rfl
    | cons b s ih =>
      intro q hq
      rw [List.flatMap_cons, run_append, run_cons]
      have hb : run q (f b) = step q b := by
        obtain hsame | ⟨hascii, hne, htext⟩ := hf b
        · rw [hsame, run_cons, run_nil]
        · rw [run_ascii htext hne hq, step_ascii hascii hq]
      rw [hb]
      exact ih _ (hq.step b)
  unfold WellFormed
  rw [hrun s _ proper_start]

/-- The byte lies in the range. -/
def InRange (r : Range) (b : UInt8) : Prop := r.1 ≤ b ∧ b ≤ r.2

/-- A string that completes a character begins with the bytes asked for. -/
theorem run_split {ranges : List Range} (h : run (some ranges) s = some []) :
    ∃ bs t, s = bs ++ t ∧ List.Forall₂ InRange ranges bs ∧ WellFormed t := by
  induction ranges generalizing s with
  | nil => exact ⟨[], s, rfl, .nil, h⟩
  | cons r ranges ih =>
    cases s with
    | nil => cases h
    | cons b s =>
      rw [run_cons] at h
      by_cases hb : r.1 ≤ b ∧ b ≤ r.2
      · have hstep : step (some (r :: ranges)) b = some ranges := if_pos hb
        rw [hstep] at h
        obtain ⟨bs, t, rfl, hbs, ht⟩ := ih h
        exact ⟨b :: bs, t, rfl, .cons hb hbs, ht⟩
      · have hstep : step (some (r :: ranges)) b = none := if_neg hb
        rw [hstep, run_none] at h
        cases h

theorem wide_of_inRange {ranges : List Range} {bs : List UInt8}
    (h : List.Forall₂ InRange ranges bs) (hproper : ∀ r ∈ ranges, 0x80 ≤ r.1) :
    ∀ x ∈ bs, ¬ x ≤ 0x7F := by
  induction h with
  | nil => exact fun x hx => nomatch hx
  | @cons r b ranges bs hb _ ih =>
    obtain ⟨hr, hrest⟩ := List.forall_mem_cons.mp hproper
    refine List.forall_mem_cons.mpr ⟨fun hle => ?_, ih hrest⟩
    have h1 : (128 : Nat) ≤ r.1.toNat := hr
    have h2 : r.1.toNat ≤ b.toNat := hb.1
    have h3 : b.toNat ≤ 127 := hle
    omega

/-- A well-formed string begins with a lead byte and the bytes it asks for,
none of which is ASCII. -/
theorem WellFormed.split (h : WellFormed (b :: s)) :
    ∃ ranges bs t, tails b = some ranges ∧ s = bs ++ t ∧ List.Forall₂ InRange ranges bs ∧
      (∀ x ∈ bs, ¬ x ≤ 0x7F) ∧ WellFormed t := by
  have hrun : run (tails b) s = some [] := h
  cases htails : tails b with
  | none =>
    rw [htails, run_none] at hrun
    cases hrun
  | some ranges =>
    rw [htails] at hrun
    obtain ⟨bs, t, rfl, hbs, ht⟩ := run_split hrun
    exact ⟨ranges, bs, t, rfl, rfl, hbs, wide_of_inRange hbs (proper_tails b ranges htails), ht⟩

/-! ## Characters -/

/-- The encoding of a code point. -/
def encode (c : Nat) : List UInt8 :=
  if c < 0x80 then [.ofNat c]
  else if c < 0x800 then [.ofNat (0xC0 + c / 64), .ofNat (0x80 + c % 64)]
  else if c < 0x10000 then
    [.ofNat (0xE0 + c / 4096), .ofNat (0x80 + c / 64 % 64), .ofNat (0x80 + c % 64)]
  else
    [.ofNat (0xF0 + c / 262144), .ofNat (0x80 + c / 4096 % 64), .ofNat (0x80 + c / 64 % 64),
      .ofNat (0x80 + c % 64)]

private theorem le_ofNat {k : Nat} (hk : k < 256) (hn : n < 256) :
    UInt8.ofNat k ≤ UInt8.ofNat n ↔ k ≤ n := by
  rw [UInt8.le_iff_toNat_le, UInt8.toNat_ofNat', UInt8.toNat_ofNat', Nat.mod_eq_of_lt hk,
    Nat.mod_eq_of_lt hn]

private theorem step_range (rs : List Range) (hhi : hi < 256) (h : lo ≤ n) (h' : n ≤ hi) :
    step (some ((.ofNat lo, .ofNat hi) :: rs)) (.ofNat n) = some rs := by
  have hlo : UInt8.ofNat lo ≤ UInt8.ofNat n := (le_ofNat (by omega) (by omega)).mpr h
  have hle : UInt8.ofNat n ≤ UInt8.ofNat hi := (le_ofNat (by omega) (by omega)).mpr h'
  simp [Utf8.step, hlo, hle]

/-- The lead bytes in decimal, for arithmetic. -/
private theorem tails_ofNat (hn : n < 256) :
    tails (.ofNat n) =
      if n ≤ 127 then some []
      else if 194 ≤ n ∧ n ≤ 223 then some [tail]
      else if n = 224 then some [(0xA0, 0xBF), tail]
      else if n = 237 then some [(0x80, 0x9F), tail]
      else if 225 ≤ n ∧ n ≤ 239 then some [tail, tail]
      else if n = 240 then some [(0x90, 0xBF), tail, tail]
      else if 241 ≤ n ∧ n ≤ 243 then some [tail, tail, tail]
      else if n = 244 then some [(0x80, 0x8F), tail, tail]
      else none := by
  have key : ∀ m : Fin 256, tails (.ofNat m.val) =
      if m.val ≤ 127 then some []
      else if 194 ≤ m.val ∧ m.val ≤ 223 then some [tail]
      else if m.val = 224 then some [(0xA0, 0xBF), tail]
      else if m.val = 237 then some [(0x80, 0x9F), tail]
      else if 225 ≤ m.val ∧ m.val ≤ 239 then some [tail, tail]
      else if m.val = 240 then some [(0x90, 0xBF), tail, tail]
      else if 241 ≤ m.val ∧ m.val ≤ 243 then some [tail, tail, tail]
      else if m.val = 244 then some [(0x80, 0x8F), tail, tail]
      else none := by decide +kernel
  exact key ⟨n, hn⟩

private theorem step_tail (rs : List Range) :
    step (some (tail :: rs)) (.ofNat (0x80 + n % 64)) = some rs :=
  @step_range 0x80 0xBF _ rs (by omega) (by omega) (by omega)

/-- The first two bytes of a three-byte character. -/
private theorem step_three (hc : c < 0xD800 ∨ 0xDFFF < c) (hlo : 0x800 ≤ c) (hhi : c < 0x10000) :
    step (tails (.ofNat (0xE0 + c / 4096))) (.ofNat (0x80 + c / 64 % 64)) = some [tail] := by
  rw [tails_ofNat (by omega), if_neg (by omega), if_neg (by omega)]
  split_ifs with h1 h2 h3
  · exact @step_range 0xA0 0xBF _ _ (by omega) (by omega) (by omega)
  · exact @step_range 0x80 0x9F _ _ (by omega) (by omega) (by omega)
  · exact step_tail _
  all_goals omega

/-- The first two bytes of a four-byte character. -/
private theorem step_four (hlo : 0x10000 ≤ c) (hhi : c ≤ 0x10FFFF) :
    step (tails (.ofNat (0xF0 + c / 262144))) (.ofNat (0x80 + c / 4096 % 64)) =
      some [tail, tail] := by
  rw [tails_ofNat (by omega), if_neg (by omega), if_neg (by omega), if_neg (by omega),
    if_neg (by omega), if_neg (by omega)]
  split_ifs with h1 h2 h3
  · exact @step_range 0x90 0xBF _ _ (by omega) (by omega) (by omega)
  · exact step_tail _
  · exact @step_range 0x80 0x8F _ _ (by omega) (by omega) (by omega)
  · omega

/-- Every scalar value has a well-formed encoding. -/
theorem wellFormed_encode (hc : c < 0xD800 ∨ 0xDFFF < c) (hmax : c ≤ 0x10FFFF) :
    WellFormed (encode c) := by
  have hlead : ∀ b, step (some []) b = tails b := fun _ => rfl
  unfold WellFormed encode
  split_ifs with h1 h2 h3
  · rw [run_cons, run_nil, hlead, tails_ofNat (by omega), if_pos (by omega)]
  · rw [run_cons, run_cons, run_nil, hlead, tails_ofNat (by omega), if_neg (by omega),
      if_pos (by omega)]
    exact step_tail []
  · rw [run_cons, run_cons, run_cons, run_nil, hlead, step_three hc (by omega) (by omega)]
    exact step_tail []
  · rw [run_cons, run_cons, run_cons, run_cons, run_nil, hlead, step_four (by omega) hmax,
      step_tail]
    exact step_tail []

/-! ## Decoding -/

/-- A code point that is not a surrogate. -/
def IsScalar (n : Nat) : Prop := (n < 0xD800 ∨ 0xDFFF < n) ∧ n ≤ 0x10FFFF

theorem isScalar_char (c : Char) : IsScalar c.toNat := by
  have hvalid : c.toNat < 0xD800 ∨ 0xDFFF < c.toNat ∧ c.toNat < 0x110000 := c.valid
  unfold IsScalar
  omega

theorem exists_char (h : IsScalar n) : ∃ c : Char, c.toNat = n := by
  have hvalid : n.isValidChar := by
    show n < 0xD800 ∨ 0xDFFF < n ∧ n < 0x110000
    unfold IsScalar at h
    omega
  exact ⟨Char.ofNatAux n hvalid, rfl⟩

/-- The encoding of the core library is the one by code points. -/
theorem utf8EncodeChar_eq (c : Char) : String.utf8EncodeChar c = encode c.toNat := by
  have hmax : c.val.toNat ≤ 0x10FFFF := (isScalar_char c).2
  unfold String.utf8EncodeChar
  show _ = encode c.val.toNat
  generalize c.val.toNat = v at hmax
  unfold encode
  by_cases h1 : v < 0x80
  · rw [if_pos (by omega), if_pos h1]
  rw [if_neg (by omega), if_neg h1]
  by_cases h2 : v < 0x800
  · rw [if_pos (by omega), if_pos h2, Nat.mod_eq_of_lt (by omega), Nat.add_comm 192,
      Nat.add_comm 128]
  rw [if_neg (by omega), if_neg h2]
  by_cases h3 : v < 0x10000
  · rw [if_pos (by omega), if_pos h3, Nat.mod_eq_of_lt (by omega), Nat.add_comm 224,
      Nat.add_comm 128, Nat.add_comm 128]
  rw [if_neg (by omega), if_neg h3, Nat.mod_eq_of_lt (by omega), Nat.add_comm 240,
    Nat.add_comm 128, Nat.add_comm 128, Nat.add_comm 128]

theorem length_encode_pos (n : Nat) : 0 < (encode n).length := by
  unfold encode
  split_ifs <;> exact Nat.succ_pos _

theorem encode_one (hx : x < 128) : encode x = [.ofNat x] := if_pos hx

theorem encode_two (hlo : 0x80 ≤ x * 64 + y) (hx : x < 32) (hy : y < 64) :
    encode (x * 64 + y) = [.ofNat (0xC0 + x), .ofNat (0x80 + y)] := by
  have h1 : (x * 64 + y) / 64 = x := by omega
  have h2 : (x * 64 + y) % 64 = y := by omega
  unfold encode
  rw [if_neg (by omega), if_pos (by omega), h1, h2]

theorem encode_three {z : Nat} (hlo : 0x800 ≤ (x * 64 + y) * 64 + z) (hx : x < 16) (hy : y < 64)
    (hz : z < 64) :
    encode ((x * 64 + y) * 64 + z) = [.ofNat (0xE0 + x), .ofNat (0x80 + y), .ofNat (0x80 + z)] := by
  have h1 : ((x * 64 + y) * 64 + z) / 4096 = x := by omega
  have h2 : ((x * 64 + y) * 64 + z) / 64 % 64 = y := by omega
  have h3 : ((x * 64 + y) * 64 + z) % 64 = z := by omega
  unfold encode
  rw [if_neg (by omega), if_neg (by omega), if_pos (by omega), h1, h2, h3]

theorem encode_four {w z : Nat} (hlo : 0x10000 ≤ ((w * 64 + x) * 64 + y) * 64 + z) (hx : x < 64)
    (hy : y < 64) (hz : z < 64) :
    encode (((w * 64 + x) * 64 + y) * 64 + z) =
      [.ofNat (0xF0 + w), .ofNat (0x80 + x), .ofNat (0x80 + y), .ofNat (0x80 + z)] := by
  have h1 : (((w * 64 + x) * 64 + y) * 64 + z) / 262144 = w := by omega
  have h2 : (((w * 64 + x) * 64 + y) * 64 + z) / 4096 % 64 = x := by omega
  have h3 : (((w * 64 + x) * 64 + y) * 64 + z) / 64 % 64 = y := by omega
  have h4 : (((w * 64 + x) * 64 + y) * 64 + z) % 64 = z := by omega
  unfold encode
  rw [if_neg (by omega), if_neg (by omega), if_neg (by omega), h1, h2, h3, h4]

/-- Inside a character the next byte is there and lies in its range. -/
private theorem run_range {rs : List Range} (hlo : 0x80 ≤ lo ∧ lo < 256) (hhi : hi < 256)
    (h : run (some ((.ofNat lo, .ofNat hi) :: rs)) s = some []) :
    ∃ x t, s = .ofNat (0x80 + x) :: t ∧ lo ≤ 0x80 + x ∧ 0x80 + x ≤ hi ∧
      run (some rs) t = some [] := by
  cases s with
  | nil => cases h
  | cons b t =>
    rw [run_cons] at h
    by_cases hb : UInt8.ofNat lo ≤ b ∧ b ≤ UInt8.ofNat hi
    · have hstep : step (some ((.ofNat lo, .ofNat hi) :: rs)) b = some rs := if_pos hb
      rw [hstep] at h
      have hle : b.toNat ≤ hi := by
        have := UInt8.le_iff_toNat_le.mp hb.2
        rwa [UInt8.toNat_ofNat', Nat.mod_eq_of_lt hhi] at this
      have hge : lo ≤ b.toNat := by
        have := UInt8.le_iff_toNat_le.mp hb.1
        rwa [UInt8.toNat_ofNat', Nat.mod_eq_of_lt hlo.2] at this
      obtain ⟨x, hx⟩ := Nat.exists_eq_add_of_le (Nat.le_trans hlo.1 hge)
      refine ⟨x, t, ?_, by omega, by omega, h⟩
      rw [← hx, UInt8.ofNat_toNat]
    · have hstep : step (some ((.ofNat lo, .ofNat hi) :: rs)) b = none := if_neg hb
      rw [hstep, run_none] at h
      cases h

/-- The rest of a two-byte character. -/
private theorem run_tail (h : run (some [tail]) s = some []) :
    ∃ z t, s = .ofNat (0x80 + z) :: t ∧ z < 64 ∧ WellFormed t := by
  obtain ⟨z, t, rfl, -, hz, ht⟩ := @run_range 0x80 0xBF _ _ (by omega) (by omega) h
  exact ⟨z, t, rfl, by omega, ht⟩

/-- The rest of a three-byte character. -/
private theorem run_three (hlo : 0x80 ≤ lo ∧ lo < 256) (hhi : hi < 256)
    (h : run (some [(.ofNat lo, .ofNat hi), tail]) s = some []) :
    ∃ y z t, s = .ofNat (0x80 + y) :: .ofNat (0x80 + z) :: t ∧ lo ≤ 0x80 + y ∧ 0x80 + y ≤ hi ∧
      z < 64 ∧ WellFormed t := by
  obtain ⟨y, s, rfl, h1, h2, hs⟩ := run_range hlo hhi h
  obtain ⟨z, t, rfl, hz, ht⟩ := run_tail hs
  exact ⟨y, z, t, rfl, h1, h2, hz, ht⟩

/-- The rest of a four-byte character. -/
private theorem run_four (hlo : 0x80 ≤ lo ∧ lo < 256) (hhi : hi < 256)
    (h : run (some [(.ofNat lo, .ofNat hi), tail, tail]) s = some []) :
    ∃ x y z t, s = .ofNat (0x80 + x) :: .ofNat (0x80 + y) :: .ofNat (0x80 + z) :: t ∧
      lo ≤ 0x80 + x ∧ 0x80 + x ≤ hi ∧ y < 64 ∧ z < 64 ∧ WellFormed t := by
  obtain ⟨x, s, rfl, h1, h2, hs⟩ := run_range hlo hhi h
  obtain ⟨y, z, t, rfl, -, hy, hz, ht⟩ := @run_three 0x80 0xBF _ (by omega) (by omega) hs
  exact ⟨x, y, z, t, rfl, h1, h2, by omega, hz, ht⟩

/-- A string that begins with the encoding of a scalar value. -/
def Begins (s : List UInt8) : Prop := ∃ n t, IsScalar n ∧ s = encode n ++ t ∧ WellFormed t

private theorem begins_three (hlo : 0x80 ≤ lo ∧ lo < 256) (hhi : hi ≤ 0xBF) (hx : x < 16)
    (hover : x = 0 → 0xA0 ≤ lo) (hsurrogate : x = 13 → hi ≤ 0x9F)
    (h : run (some [(.ofNat lo, .ofNat hi), tail]) s = some []) :
    Begins (.ofNat (0xE0 + x) :: s) := by
  obtain ⟨y, z, t, rfl, h1, h2, hz, ht⟩ := run_three hlo (by omega) h
  have hy : y < 64 := by omega
  have hscalar : IsScalar ((x * 64 + y) * 64 + z) := by
    unfold IsScalar
    omega
  refine ⟨_, t, hscalar, ?_, ht⟩
  rw [encode_three (by omega) hx hy hz]
  rfl

private theorem begins_four {w : Nat} (hlo : 0x80 ≤ lo ∧ lo < 256) (hhi : hi ≤ 0xBF) (hw : w < 5)
    (hover : w = 0 → 0x90 ≤ lo) (hlast : w = 4 → hi ≤ 0x8F)
    (h : run (some [(.ofNat lo, .ofNat hi), tail, tail]) s = some []) :
    Begins (.ofNat (0xF0 + w) :: s) := by
  obtain ⟨x, y, z, t, rfl, h1, h2, hy, hz, ht⟩ := run_four hlo (by omega) h
  have hx : x < 64 := by omega
  have hscalar : IsScalar (((w * 64 + x) * 64 + y) * 64 + z) := by
    unfold IsScalar
    omega
  refine ⟨_, t, hscalar, ?_, ht⟩
  rw [encode_four (by omega) hx hy hz]
  rfl

theorem WellFormed.begins (h : WellFormed (b :: s)) : Begins (b :: s) := by
  have hlt := b.toNat_lt
  have hb : b = .ofNat b.toNat := UInt8.ofNat_toNat.symm
  have hrun : run (tails b) s = some [] := h
  clear h
  rw [hb] at hrun ⊢
  generalize b.toNat = m at hlt hrun
  rw [tails_ofNat hlt] at hrun
  -- the lead byte fixes the number of bytes and the range of the second
  by_cases h1 : m ≤ 127
  · rw [if_pos h1] at hrun
    exact ⟨m, s, ⟨by omega, by omega⟩, by rw [encode_one (by omega)]; rfl, hrun⟩
  rw [if_neg h1] at hrun
  by_cases h2 : 194 ≤ m ∧ m ≤ 223
  · rw [if_pos h2] at hrun
    obtain ⟨y, t, rfl, hy, ht⟩ := run_tail hrun
    obtain ⟨x, rfl⟩ : ∃ x, m = 0xC0 + x := ⟨m - 0xC0, by omega⟩
    refine ⟨x * 64 + y, t, ⟨by omega, by omega⟩, ?_, ht⟩
    rw [encode_two (by omega) (by omega) hy]
    rfl
  rw [if_neg h2] at hrun
  by_cases h3 : m = 0xE0 + 0
  · rw [if_pos h3] at hrun
    rw [h3]
    exact @begins_three 0xA0 0xBF _ _ (by decide) (by decide) (by decide) (by decide) (by decide)
      hrun
  rw [if_neg h3] at hrun
  by_cases h4 : m = 0xE0 + 13
  · rw [if_pos h4] at hrun
    rw [h4]
    exact @begins_three 0x80 0x9F _ _ (by decide) (by decide) (by decide) (by decide) (by decide)
      hrun
  rw [if_neg h4] at hrun
  by_cases h5 : 225 ≤ m ∧ m ≤ 239
  · rw [if_pos h5] at hrun
    obtain ⟨x, rfl⟩ : ∃ x, m = 0xE0 + x := ⟨m - 0xE0, by omega⟩
    exact @begins_three 0x80 0xBF _ _ (by decide) (by decide) (by omega) (by omega) (by omega) hrun
  rw [if_neg h5] at hrun
  by_cases h6 : m = 0xF0 + 0
  · rw [if_pos h6] at hrun
    rw [h6]
    exact @begins_four 0x90 0xBF _ _ (by decide) (by decide) (by decide) (by decide) (by decide)
      hrun
  rw [if_neg h6] at hrun
  by_cases h7 : 241 ≤ m ∧ m ≤ 243
  · rw [if_pos h7] at hrun
    obtain ⟨w, rfl⟩ : ∃ w, m = 0xF0 + w := ⟨m - 0xF0, by omega⟩
    exact @begins_four 0x80 0xBF _ _ (by decide) (by decide) (by omega) (by omega) (by omega) hrun
  rw [if_neg h7] at hrun
  by_cases h8 : m = 0xF0 + 4
  · rw [if_pos h8] at hrun
    rw [h8]
    exact @begins_four 0x80 0x8F _ _ (by decide) (by decide) (by decide) (by decide) (by decide)
      hrun
  rw [if_neg h8, run_none] at hrun
  cases hrun

/-- The encoding of a list of scalar values. -/
def spell (cs : List Char) : List UInt8 := cs.flatMap String.utf8EncodeChar

@[simp] theorem spell_nil : spell [] = [] := rfl

theorem spell_cons (c : Char) (cs : List Char) :
    spell (c :: cs) = encode c.toNat ++ spell cs := by
  rw [← utf8EncodeChar_eq]
  rfl

/-- A string spells one list of scalar values only. -/
theorem spell_injective {cs ds : List Char} (h : spell cs = spell ds) : cs = ds := by
  have hbytes : cs.utf8Encode = ds.utf8Encode := congrArg List.toByteArray h
  have htext : String.ofList cs = String.ofList ds := by
    rw [← String.toByteArray_inj, String.toByteArray_ofList, String.toByteArray_ofList, hbytes]
  rw [← String.toList_ofList (l := cs), htext, String.toList_ofList]

/-- The well-formed strings are the encodings of lists of scalar values. -/
theorem wellFormed_iff : WellFormed s ↔ ∃ cs, spell cs = s := by
  constructor
  · intro h
    -- one character at a time, on the length of what remains
    induction hlen : s.length using Nat.strongRecOn generalizing s with
    | ind k ih =>
      cases s with
      | nil => exact ⟨[], rfl⟩
      | cons b s =>
        obtain ⟨n, t, hn, heq, ht⟩ := h.begins
        obtain ⟨c, rfl⟩ := exists_char hn
        have hshort : t.length < k := by
          have hlength := congrArg List.length heq
          have hpos := length_encode_pos c.toNat
          rw [List.length_append, hlen] at hlength
          omega
        obtain ⟨cs, hcs⟩ := ih _ hshort ht rfl
        exact ⟨c :: cs, by rw [spell_cons, hcs, heq]⟩
  · rintro ⟨cs, rfl⟩
    induction cs with
    | nil => exact wellFormed_nil
    | cons c cs ih =>
      rw [spell_cons]
      exact (wellFormed_encode (isScalar_char c).1 (isScalar_char c).2).append ih

end Base.Utf8
