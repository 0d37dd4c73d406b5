import ChatServer.Common.Types

/-!
# Decimal text

`std::to_string` gives different texts for different numbers, none of them
with a colon, so that keys built by joining numbers with colons can be taken
apart again.
-/

namespace ChatServer

/-- The bytes of a digit character give it back. -/
private theorem charOf_byte {c : Char} (h : c.isDigit = true) :
    Char.ofNat (UInt8.ofNat c.toNat).toNat = c := by
  have hlt : c.toNat < 256 := by
    simp only [Char.isDigit, Bool.and_eq_true, decide_eq_true_eq] at h
    have hle : c.toNat ≤ 57 := h.2
    omega
  rw [UInt8.toNat_ofNat', Nat.mod_eq_of_lt hlt]
  exact Char.ofNat_toNat c

theorem natText_injective {m n : Nat} (h : natText m = natText n) : m = n := by
  have hback : ∀ n : Nat, (natText n).map (fun b => Char.ofNat b.toNat) = Nat.toDigits 10 n := by
    intro n
    rw [natText, List.map_map]
    conv => rhs; rw [← List.map_id (Nat.toDigits 10 n)]
    refine List.map_congr_left fun c hc => ?_
    exact charOf_byte (Nat.isDigit_of_mem_toDigits (by omega) (by omega) hc)
  have hdigits : Nat.toDigits 10 m = Nat.toDigits 10 n := by rw [← hback, ← hback, h]
  have hm := Nat.ofDigitChars_toDigits (b := 10) (n := m) (by omega) (by omega)
  rw [hdigits, Nat.ofDigitChars_toDigits (by omega) (by omega)] at hm
  exact hm.symm

/-- A digit byte lies between `0` and `9`. -/
theorem natText_digit {n : Nat} {b : UInt8} (h : b ∈ natText n) : 48 ≤ b.toNat ∧ b.toNat ≤ 57 := by
  obtain ⟨c, hc, rfl⟩ := List.mem_map.mp h
  have hdigit := Nat.isDigit_of_mem_toDigits (b := 10) (by omega) (by omega) hc
  simp only [Char.isDigit, Bool.and_eq_true, decide_eq_true_eq] at hdigit
  have hle : c.toNat ≤ 57 := hdigit.2
  have hge : 48 ≤ c.toNat := hdigit.1
  rw [UInt8.toNat_ofNat', Nat.mod_eq_of_lt (by omega)]
  exact ⟨hge, hle⟩

/-- The text of an integer is made of digits and a minus. -/
theorem intText_byte {i : Int} {b : UInt8} (h : b ∈ intText i) :
    b = 45 ∨ (48 ≤ b.toNat ∧ b.toNat ≤ 57) := by
  cases i with
  | ofNat n => exact .inr (natText_digit h)
  | negSucc n =>
    rcases List.mem_cons.mp h with hminus | hdigits
    · exact .inl hminus
    · exact .inr (natText_digit hdigits)

theorem colon_not_mem_natText (n : Nat) : (58 : UInt8) ∉ natText n := by
  intro h
  have := natText_digit h
  revert this
  decide

theorem colon_not_mem_intText (i : Int) : (58 : UInt8) ∉ intText i := by
  intro h
  have := intText_byte h
  revert this
  decide

/-! ## Digit by digit -/

private theorem digitChar_byte {d : Nat} (h : d < 10) :
    UInt8.ofNat d.digitChar.toNat = .ofNat (48 + d) := by
  have key : ∀ d : Fin 10, UInt8.ofNat d.val.digitChar.toNat = .ofNat (48 + d.val) := by decide
  exact key ⟨d, h⟩

theorem natText_of_lt {n : Nat} (h : n < 10) : natText n = [.ofNat (48 + n)] := by
  rw [natText, Nat.toDigits_of_lt_base h, List.map_singleton, digitChar_byte h]

theorem natText_of_le {n : Nat} (h : 10 ≤ n) :
    natText n = natText (n / 10) ++ [.ofNat (48 + n % 10)] := by
  rw [natText, Nat.toDigits_of_base_le (by omega) h, List.map_append, List.map_singleton,
    digitChar_byte (by omega)]
  rfl

/-- The text of a positive number does not begin with `0`. -/
theorem natText_head {n : Nat} (h : 0 < n) : ∃ d digits, natText n = d :: digits ∧ d ≠ 48 := by
  induction n using Nat.strongRecOn with
  | ind n ih =>
    by_cases hlt : n < 10
    · refine ⟨_, [], natText_of_lt hlt, fun heq => ?_⟩
      have := congrArg UInt8.toNat heq
      rw [UInt8.toNat_ofNat', Nat.mod_eq_of_lt (by omega)] at this
      change 48 + n = 48 at this
      omega
    · obtain ⟨d, digits, htext, hd⟩ := ih (n / 10) (by omega) (by omega)
      exact ⟨d, digits ++ [_], by rw [natText_of_le (by omega), htext]; rfl, hd⟩

theorem intText_injective {i j : Int} (h : intText i = intText j) : i = j := by
  have hminus : ∀ m n : Nat, natText m ≠ 45 :: natText n := by
    intro m n heq
    have hmem : (45 : UInt8) ∈ natText m := heq ▸ List.mem_cons_self
    have := natText_digit hmem
    revert this
    decide
  cases i with
  | ofNat m =>
    cases j with
    | ofNat n => rw [natText_injective h]
    | negSucc n => exact absurd h (hminus m (n + 1))
  | negSucc m =>
    cases j with
    | ofNat n => exact absurd h.symm (hminus n (m + 1))
    | negSucc n =>
      have := natText_injective (List.cons.inj h).2
      rw [Nat.succ.inj this]

/-- Nineteen digits at most, and a sign. -/
theorem length_intText_le {i : Int} (h : IsInt64 i) : (intText i).length ≤ 20 := by
  have hdigits : ∀ n : Nat, n ≤ 2 ^ 63 → (natText n).length ≤ 19 := by
    intro n hn
    rw [natText, List.length_map, Nat.length_toDigits_le_iff (by decide) (by decide)]
    omega
  obtain ⟨hmin, hmax⟩ := h
  cases i with
  | ofNat n => exact Nat.le_succ_of_le (hdigits n (Nat.le_of_lt (Int.ofNat_lt.mp hmax)))
  | negSucc n => exact Nat.succ_le_succ (hdigits (n + 1) (by omega))

end ChatServer
