import ChatServer.Common.Types
import Mathlib.Data.List.Lex

/-!
# Hexadecimal text

What `std::hex` writes: plain, and padded with zeros to a width. Padded texts of
one width are ordered as the numbers are (`hexPad_lt_iff`).
-/

namespace ChatServer

/-- A lower-case hexadecimal digit. -/
def hexChar (d : Nat) : UInt8 := .ofNat (if d < 10 then 48 + d else 87 + d)

/-- `std::hex << n`. -/
def hexText (n : Nat) : Bytes :=
  if _h : n < 16 then [hexChar n] else hexText (n / 16) ++ [hexChar (n % 16)]

/-- `std::hex << std::setw(width) << std::setfill('0') << n`, for a number of at
most `width` digits. -/
def hexPad : Nat → Nat → Bytes
  | 0, _ => []
  | width + 1, n => hexPad width (n / 16) ++ [hexChar (n % 16)]

/-- Texts of hexadecimal digits. -/
def HexDigits (text : Bytes) : Prop := ∀ b ∈ text, ∃ d < 16, b = hexChar d

/-- The numbers of the bytes, which the order of texts is about. -/
def codes (text : Bytes) : List ℕ := text.map UInt8.toNat

theorem hexPad_digits (width n : ℕ) : HexDigits (hexPad width n) := by
  induction width generalizing n with
  | zero => exact fun _ hb => nomatch hb
  | succ width ih =>
    intro b hb
    rcases List.mem_append.mp hb with hb | hb
    · exact ih _ b hb
    · exact ⟨n % 16, Nat.mod_lt _ (by omega), List.mem_singleton.mp hb⟩

@[simp] theorem hexPad_length (width n : ℕ) : (hexPad width n).length = width := by
  induction width generalizing n with
  | zero => rfl
  | succ width ih => rw [hexPad, List.length_append, ih, List.length_singleton]

theorem codes_append (a b : Bytes) : codes (a ++ b) = codes a ++ codes b := List.map_append ..

/-- Lists of equal length are compared first. -/
theorem append_lt_append_iff {a b r r' : List ℕ} (h : a.length = b.length) :
    a ++ r < b ++ r' ↔ a < b ∨ a = b ∧ r < r' := by
  induction a generalizing b with
  | nil =>
    obtain rfl : b = [] := List.length_eq_zero_iff.mp h.symm
    simp
  | cons x a ih =>
    cases b with
    | nil => cases h
    | cons y b =>
      rw [List.cons_append, List.cons_append, List.cons_lt_cons_iff, List.cons_lt_cons_iff,
        ih (Nat.succ.inj h), List.cons.injEq]
      tauto

theorem hexChar_lt_iff {d e : ℕ} (hd : d < 16) (he : e < 16) :
    (hexChar d).toNat < (hexChar e).toNat ↔ d < e := by
  have key : ∀ d e : Fin 16, (hexChar d).toNat < (hexChar e).toNat ↔ d.val < e.val := by decide
  exact key ⟨d, hd⟩ ⟨e, he⟩

theorem hexChar_injective {d e : ℕ} (hd : d < 16) (he : e < 16) (h : hexChar d = hexChar e) :
    d = e := by
  have hlt := hexChar_lt_iff hd he
  have hgt := hexChar_lt_iff he hd
  rw [h] at hlt hgt
  omega

theorem hexPad_injective {width m n : ℕ} (hm : m < 16 ^ width) (hn : n < 16 ^ width)
    (h : hexPad width m = hexPad width n) : m = n := by
  induction width generalizing m n with
  | zero => simp at hm hn; omega
  | succ width ih =>
    obtain ⟨hfront, hlast⟩ := List.append_inj' h rfl
    rw [Nat.pow_succ] at hm hn
    have hdiv : m / 16 = n / 16 := ih (by omega) (by omega) hfront
    have hmod : m % 16 = n % 16 :=
      hexChar_injective (Nat.mod_lt _ (by omega)) (Nat.mod_lt _ (by omega)) (List.cons.inj hlast).1
    omega

/-- Padded hexadecimal texts are ordered as the numbers. -/
theorem hexPad_lt_iff {width m n : ℕ} (hm : m < 16 ^ width) (hn : n < 16 ^ width) :
    codes (hexPad width m) < codes (hexPad width n) ↔ m < n := by
  induction width generalizing m n with
  | zero =>
    simp only [Nat.pow_zero, Nat.lt_one_iff] at hm hn
    simp [hm, hn]
  | succ width ih =>
    rw [Nat.pow_succ] at hm hn
    have hdivm : m / 16 < 16 ^ width := by omega
    have hdivn : n / 16 < 16 ^ width := by omega
    have heq : codes (hexPad width (m / 16)) = codes (hexPad width (n / 16)) ↔
        m / 16 = n / 16 := by
      constructor
      · intro h
        have htext := List.map_injective_iff.mpr (fun _ _ => UInt8.toNat_inj.mp) h
        exact hexPad_injective hdivm hdivn htext
      · intro h
        rw [h]
    have hdigit : codes [hexChar (m % 16)] < codes [hexChar (n % 16)] ↔ m % 16 < n % 16 := by
      rw [← hexChar_lt_iff (Nat.mod_lt m (by omega)) (Nat.mod_lt n (by omega))]
      simp [codes, List.cons_lt_cons_iff]
    rw [hexPad, hexPad, codes_append, codes_append, append_lt_append_iff (by simp [codes]),
      ih hdivm hdivn, heq, hdigit]
    omega

/-! ## Without padding -/

theorem hexText_lt {n : ℕ} (h : n < 16) : hexText n = [hexChar n] := by
  rw [hexText, dif_pos h]

theorem hexText_ge {n : ℕ} (h : ¬ n < 16) : hexText n = hexText (n / 16) ++ [hexChar (n % 16)] := by
  rw [hexText, dif_neg h]

theorem hexText_digits (n : ℕ) : HexDigits (hexText n) := by
  induction n using hexText.induct with
  | case1 n h =>
    intro b hb
    rw [hexText_lt h] at hb
    exact ⟨n, h, List.mem_singleton.mp hb⟩
  | case2 n h ih =>
    intro b hb
    rw [hexText_ge h] at hb
    rcases List.mem_append.mp hb with hb | hb
    · exact ih b hb
    · exact ⟨n % 16, Nat.mod_lt _ (by omega), List.mem_singleton.mp hb⟩

theorem hexText_ne_nil (n : ℕ) : hexText n ≠ [] := by
  by_cases h : n < 16
  · rw [hexText_lt h]
    exact List.cons_ne_nil _ _
  · rw [hexText_ge h]
    exact List.append_ne_nil_of_right_ne_nil _ (List.cons_ne_nil _ _)

/-- A number of one digit and one of more have different texts. -/
theorem hexText_ne_of_lt {m n : ℕ} (hm : m < 16) (hn : ¬ n < 16) : hexText m ≠ hexText n := by
  intro h
  rw [hexText_lt hm, hexText_ge hn] at h
  have hlength := congrArg List.length h
  have hpos := List.length_pos_iff.mpr (hexText_ne_nil (n / 16))
  simp only [List.length_append, List.length_singleton] at hlength
  omega

theorem hexText_injective {m n : ℕ} (h : hexText m = hexText n) : m = n := by
  induction m using hexText.induct generalizing n with
  | case1 m hm =>
    by_cases hn : n < 16
    · rw [hexText_lt hm, hexText_lt hn] at h
      exact hexChar_injective hm hn (List.cons.inj h).1
    · exact absurd h (hexText_ne_of_lt hm hn)
  | case2 m hm ih =>
    by_cases hn : n < 16
    · exact absurd h.symm (hexText_ne_of_lt hn hm)
    · rw [hexText_ge hm, hexText_ge hn] at h
      obtain ⟨hfront, hlast⟩ := List.append_inj' h rfl
      have hdiv : m / 16 = n / 16 := ih hfront
      have hmod : m % 16 = n % 16 := hexChar_injective (Nat.mod_lt _ (by omega))
        (Nat.mod_lt _ (by omega)) (List.cons.inj hlast).1
      omega

end ChatServer
