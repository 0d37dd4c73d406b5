import ChatServer.Common.StdHash
import ChatServer.Common.Text
import ChatServer.Common.Validator

/-!
# `BcryptPasswordHasher`

`Verify`, and the hash that old accounts are stored with: `LegacyLibstdcxxHash`
computes `std::hash<std::string>` of libstdc++ without relying on the library.
`crypt_r` is a parameter.

* `legacySwitch_eq` — the `switch` that falls through from the last byte to the
  first takes in the bytes that are left as one number;
* `legacyBlocks_eq` — the loop and the `switch` are those of the library;
* `legacy_hash_verifies` — the hashes agree, and which passwords verify.
-/

namespace ChatServer.Security

/-! ## The legacy hash -/

def kMultiplier : UInt64 := 0xc6a4a7935bd1e995

def kShift : UInt64 := 47

def kSeed : UInt64 := 0xc70f6907

/-- `data[i]` as a 64-bit number. -/
def byteAt (data : Bytes) (i : Nat) : UInt64 := (data.getD i 0).toUInt64

/-- The loop over the blocks; `data` is what the pointer points at, and `memcpy`
loads the lowest byte first. -/
def legacyBlocks (hash : UInt64) (data : Bytes) (remaining : Nat) : UInt64 × Bytes × Nat :=
  if 8 ≤ remaining then
    let block := loadBytes (data.take 8)
    let block := block * kMultiplier
    let block := block ^^^ block >>> kShift
    let block := block * kMultiplier
    legacyBlocks ((hash ^^^ block) * kMultiplier) (data.drop 8) (remaining - 8)
  else (hash, data, remaining)

/-- The `switch` over the bytes that are left: every case falls through. -/
def legacySwitch (data : Bytes) : Nat → UInt64 → UInt64
  | 7, hash => legacySwitch data 6 (hash ^^^ byteAt data 6 <<< 48)
  | 6, hash => legacySwitch data 5 (hash ^^^ byteAt data 5 <<< 40)
  | 5, hash => legacySwitch data 4 (hash ^^^ byteAt data 4 <<< 32)
  | 4, hash => legacySwitch data 3 (hash ^^^ byteAt data 3 <<< 24)
  | 3, hash => legacySwitch data 2 (hash ^^^ byteAt data 2 <<< 16)
  | 2, hash => legacySwitch data 1 (hash ^^^ byteAt data 1 <<< 8)
  | 1, hash => (hash ^^^ byteAt data 0) * kMultiplier
  | _, hash => hash

/-- `LegacyLibstdcxxHash`. -/
def legacyLibstdcxxHash (password : Bytes) : UInt64 :=
  let hash := kSeed ^^^ .ofNat password.length * kMultiplier
  let (hash, data, remaining) := legacyBlocks hash password password.length
  let hash := legacySwitch data remaining hash
  let hash := hash ^^^ hash >>> kShift
  let hash := hash * kMultiplier
  hash ^^^ hash >>> kShift

/-- `LegacyHash`. -/
def legacyHash (password : Bytes) : Bytes := natText (legacyLibstdcxxHash password).toNat

/-! ## `Verify` -/

def hasEmbeddedNul (value : Bytes) : Bool := value.contains 0

def isBcryptHash (encodedHash : Bytes) : Bool :=
  encodedHash.length = 60 ∧
    (encodedHash.take 4 = str "$2a$" ∨ encodedHash.take 4 = str "$2b$" ∨
      encodedHash.take 4 = str "$2y$")

def isLegacyDecimalHash (encodedHash : Bytes) : Bool :=
  if encodedHash.isEmpty || encodedHash.length > 20 then false
  else encodedHash.all fun ch => 48 ≤ ch.toNat ∧ ch.toNat ≤ 57

def constantTimeEquals (left right : Bytes) : Bool :=
  if left.length ≠ right.length then false
  else (left.zip right).foldl (fun difference (l, r) => difference ||| (l ^^^ r)) 0 = 0

def verify (crypt : Bytes → Bytes → Option Bytes) (password encodedHash : Bytes) : Bool :=
  if password.isEmpty || password.length > 72 || hasEmbeddedNul password then false
  else if isLegacyDecimalHash encodedHash then
    constantTimeEquals (legacyHash password) encodedHash
  else if !isBcryptHash encodedHash then false
  else (crypt password encodedHash).any (constantTimeEquals · encodedHash)

/-! ## Bytes of a number -/

/-- The byte goes where the shift has left zeros. -/
theorem shift_or_eq_xor (v : UInt64) (b : UInt8) :
    v <<< 8 ||| b.toUInt64 = v <<< 8 ^^^ b.toUInt64 := by
  apply UInt64.toBitVec_inj.mp
  ext i hi
  by_cases hlow : i < 8
  · simp [hlow]
  · have hbyte : b.toBitVec.getLsbD i = false := BitVec.getLsbD_of_ge _ _ (by omega)
    simp [hlow, hbyte]

theorem loadBytes_cons (b : UInt8) (bytes : Bytes) :
    loadBytes (b :: bytes) = loadBytes bytes <<< 8 ^^^ b.toUInt64 :=
  shift_or_eq_xor (loadBytes bytes) b

theorem shift_byte (v : UInt64) {n : Nat} (h : n < 7) :
    v <<< .ofNat (8 * n) <<< 8 = v <<< .ofNat (8 * (n + 1)) := by
  have hshift : (UInt64.ofNat (8 * n)).toNat = 8 * n :=
    UInt64.toNat_ofNat_of_lt' (by rw [UInt64.size]; omega)
  rw [Nat.mul_succ, UInt64.ofNat_add]
  refine (UInt64.shiftLeft_add ?_ (by decide) ?_).symm
  · rw [UInt64.lt_iff_toNat_lt, hshift]
    simp
    omega
  · rw [UInt64.lt_iff_toNat_lt, UInt64.toNat_add, hshift]
    simp
    omega

/-- One more byte at the high end. -/
theorem loadBytes_concat {bytes : Bytes} (b : UInt8) (h : bytes.length < 8) :
    loadBytes (bytes ++ [b]) = loadBytes bytes ^^^ b.toUInt64 <<< .ofNat (8 * bytes.length) := by
  induction bytes with
  | nil => simp [loadBytes]
  | cons a bytes ih =>
    have hlen : bytes.length + 1 < 8 := h
    rw [List.cons_append, loadBytes_cons, ih (by omega), UInt64.shiftLeft_xor,
      shift_byte _ (by omega), loadBytes_cons, List.length_cons, UInt64.xor_assoc, UInt64.xor_assoc,
      UInt64.xor_comm a.toUInt64]

/-! ## The loop and the switch -/

theorem legacySwitch_succ (data : Bytes) (hash : UInt64) {n : Nat} (h : n < 6) :
    legacySwitch data (n + 2) hash =
      legacySwitch data (n + 1) (hash ^^^ byteAt data (n + 1) <<< .ofNat (8 * (n + 1))) := by
  match n, h with
  | 0, _ | 1, _ | 2, _ | 3, _ | 4, _ | 5, _ => rw [legacySwitch]; rfl

/-- The switch on `n + 1` bytes is one `xor` with the number they form. -/
theorem legacySwitch_eq {data : Bytes} {n : Nat} (hn : n < 7) (hdata : n < data.length)
    (hash : UInt64) :
    legacySwitch data (n + 1) hash =
      (hash ^^^ loadBytes (data.take (n + 1))) * kMultiplier := by
  induction n generalizing hash with
  | zero =>
    obtain ⟨b, rest, rfl⟩ := List.exists_cons_of_length_pos hdata
    simp [legacySwitch, byteAt, loadBytes]
  | succ n ih =>
    have hlength : (data.take (n + 1)).length = n + 1 := List.length_take_of_le (by omega)
    have hload : loadBytes (data.take (n + 1 + 1)) =
        loadBytes (data.take (n + 1)) ^^^ byteAt data (n + 1) <<< .ofNat (8 * (n + 1)) := by
      rw [List.take_succ_eq_append_getElem hdata, loadBytes_concat _ (by omega), hlength, byteAt,
        List.getD_eq_getElem?_getD, List.getElem?_eq_getElem hdata, Option.getD_some]
    rw [legacySwitch_succ data hash (by omega), ih (by omega) (by omega), hload, UInt64.xor_assoc,
      UInt64.xor_comm (byteAt data (n + 1) <<< _)]

theorem legacyBlocks_short {hash : UInt64} {data : Bytes} {remaining : Nat} (h : remaining < 8) :
    legacyBlocks hash data remaining = (hash, data, remaining) := by
  rw [legacyBlocks, if_neg (by omega)]

/-- From any `hash` on, the loop and the switch do what the library does. -/
theorem legacyBlocks_eq (hash : UInt64) (data : Bytes) :
    (let (hash, data, remaining) := legacyBlocks hash data data.length
     legacySwitch data remaining hash) = hashWords hash data := by
  -- The cases of the library: a whole word, nothing left, one to seven bytes.
  fun_induction hashWords hash data with
  | case1 hash b₀ b₁ b₂ b₃ b₄ b₅ b₆ b₇ rest word ih =>
    rw [legacyBlocks, if_pos (by simp only [List.length_cons]; omega)]
    exact ih
  | case2 hash => rw [legacyBlocks_short (by decide)]; simp [legacySwitch]
  | case3 hash rest hword hnil =>
    have hshort : rest.length < 8 := by
      match rest with
      | [] | [_] | [_, _] | [_, _, _] | [_, _, _, _] | [_, _, _, _, _] | [_, _, _, _, _, _]
      | [_, _, _, _, _, _, _] => simp
      | b₀ :: b₁ :: b₂ :: b₃ :: b₄ :: b₅ :: b₆ :: b₇ :: rest =>
        exact (hword _ _ _ _ _ _ _ _ _ rfl).elim
    obtain ⟨n, hn⟩ : ∃ n, rest.length = n + 1 :=
      Nat.exists_eq_succ_of_ne_zero fun h => hnil (List.length_eq_zero_iff.mp h)
    rw [legacyBlocks_short hshort]
    change legacySwitch rest rest.length hash = _
    rw [hn, legacySwitch_eq (by omega) (by omega), ← hn, List.take_length]
    rfl

theorem legacyLibstdcxxHash_eq (password : Bytes) :
    (legacyLibstdcxxHash password).toNat = stdHash password := by
  have h := legacyBlocks_eq (kSeed ^^^ .ofNat password.length * kMultiplier) password
  exact congrArg (fun hash => (shiftMix (shiftMix hash * hashMul)).toNat) h

/-! ## `Verify` -/

theorem difference_eq_zero {left right : Bytes} (h : left.length = right.length) (acc : UInt8) :
    (left.zip right).foldl (fun difference (l, r) => difference ||| (l ^^^ r)) acc = 0 ↔
      acc = 0 ∧ left = right := by
  induction left generalizing right acc with
  | nil =>
    cases right with
    | nil => simp
    | cons r right => cases h
  | cons l left ih =>
    cases right with
    | nil => cases h
    | cons r right =>
      rw [List.zip_cons_cons, List.foldl_cons, ih (Nat.succ.inj h), UInt8.or_eq_zero_iff,
        UInt8.xor_eq_zero_iff, List.cons.injEq, and_assoc]

theorem constantTimeEquals_iff (left right : Bytes) :
    constantTimeEquals left right = true ↔ left = right := by
  unfold constantTimeEquals
  split
  case isTrue h => simpa using fun heq : left = right => h (heq ▸ rfl)
  case isFalse h => simp [difference_eq_zero (not_not.mp h) 0]

/-- A 64-bit number has at most twenty digits. -/
theorem isLegacyDecimalHash_natText (v : UInt64) : isLegacyDecimalHash (natText v.toNat) = true := by
  have hlength : (natText v.toNat).length ≤ 20 := by
    rw [natText, List.length_map, Nat.length_toDigits_le_iff (by decide) (by decide)]
    exact Nat.lt_trans v.toNat_lt (by decide)
  have hne : natText v.toNat ≠ [] := by
    by_cases hlt : v.toNat < 10
    · simp [natText_of_lt hlt]
    · simp [natText_of_le (Nat.not_lt.mp hlt)]
  rw [isLegacyDecimalHash, if_neg (by simpa using ⟨hne, hlength⟩)]
  exact List.all_eq_true.mpr fun b hb => decide_eq_true (natText_digit hb)

/-- The guard of `Verify` is the check `login` has made on the password. -/
theorem verify_legacy {crypt : Bytes → Bytes → Option Bytes} {password encodedHash : Bytes}
    (h : isLegacyDecimalHash encodedHash = true) :
    verify crypt password encodedHash = true ↔
      Validator.loginPassword password = none ∧ legacyHash password = encodedHash := by
  rw [verify, if_pos h, ← constantTimeEquals_iff, Validator.loginPassword]
  change (if password.isEmpty || password.length > Validator.passwordMaxLength ||
    Validator.hasNul password then false else _) = true ↔ _
  by_cases hnul : Validator.hasNul password = true
  · simp [hnul]
  · by_cases hlength : password.isEmpty ∨ password.length > Validator.passwordMaxLength
    · rw [if_pos (by simpa [hnul] using hlength), if_neg hnul, if_pos hlength]
      simp
    · rw [if_neg (by simpa [hnul] using hlength), if_neg hnul, if_neg hlength]
      simp

/-- `LegacyLibstdcxxHash` is `std::hash`, so a stored `std::hash` verifies, for
exactly the passwords that `login` lets through. -/
theorem legacy_hash_verifies (crypt : Bytes → Bytes → Option Bytes) (password : Bytes) :
    (legacyLibstdcxxHash password).toNat = stdHash password ∧
      (verify crypt password (natText (stdHash password)) = true ↔
        Validator.loginPassword password = none) := by
  have hagree := legacyLibstdcxxHash_eq password
  refine ⟨hagree, ?_⟩
  rw [← hagree, verify_legacy (isLegacyDecimalHash_natText _)]
  exact and_iff_left rfl

/-- A longer password is refused before its hash is looked at, whatever `crypt_r` does. -/
theorem long_password_refused :
    (legacyLibstdcxxHash (List.replicate 73 120)).toNat = stdHash (List.replicate 73 120) ∧
      ¬ ∃ crypt, verify crypt (List.replicate 73 120)
        (natText (stdHash (List.replicate 73 120))) = true := by
  refine ⟨legacyLibstdcxxHash_eq _, ?_⟩
  rintro ⟨crypt, hverify⟩
  cases hverify

end ChatServer.Security
