import Mathlib.Data.List.Basic
import Mathlib.Logic.ExistsUnique
import ChatServer.Base.Utf8
import ChatServer.Common.Types

/-!
# Input validation

`chat::Validator`. A check answers with the message of the failure, an ASCII
text, or with `none` when the value is valid.
-/

namespace ChatServer.Validator

def usernameMinLength : Nat := 3
def usernameMaxLength : Nat := 32
def registerPasswordMinLength : Nat := 6
def passwordMaxLength : Nat := 72
def nicknameMaxLength : Nat := 64
def messageMaxBytes : Nat := 4096
def idMaxLength : Nat := 64

/-- `std::isalnum` in the C locale. -/
def isAlnum (b : UInt8) : Bool :=
  decide (0x30 ≤ b ∧ b ≤ 0x39 ∨ 0x41 ≤ b ∧ b ≤ 0x5A ∨ 0x61 ≤ b ∧ b ≤ 0x7A)

/-- `std::isxdigit`. -/
def isXDigit (b : UInt8) : Bool :=
  decide (0x30 ≤ b ∧ b ≤ 0x39 ∨ 0x41 ≤ b ∧ b ≤ 0x46 ∨ 0x61 ≤ b ∧ b ≤ 0x66)

/-- `HasNul`. -/
def hasNul (value : Bytes) : Bool := value.contains 0

/-- `IsValidIdentifier`. -/
def isValidIdentifier (value : Bytes) : Bool :=
  value.all fun b => isAlnum b || b == 0x5F || b == 0x2D

/-! ## `DecodeUtf8` -/

/-- The code point bits of a lead byte and the length it announces. -/
def leadByte (lead : UInt8) : Option (Nat × Nat) :=
  if lead ≤ 0x7F then some (lead.toNat, 1)
  else if lead &&& 0xE0 = 0xC0 then some ((lead &&& 0x1F).toNat, 2)
  else if lead &&& 0xF0 = 0xE0 then some ((lead &&& 0x0F).toNat, 3)
  else if lead &&& 0xF8 = 0xF0 then some ((lead &&& 0x07).toNat, 4)
  else none

/-- The loop over the continuation bytes. -/
def continuation (codePoint : Nat) : Bytes → Option Nat
  | [] => some codePoint
  | b :: rest =>
    if b &&& 0xC0 = 0x80 then continuation ((codePoint <<< 6) ||| (b &&& 0x3F).toNat) rest
    else none

/-- A code point encoded in too many bytes, out of range or a surrogate. -/
def badCodePoint (length codePoint : Nat) : Bool :=
  decide (length = 2 ∧ codePoint < 0x80 ∨ length = 3 ∧ codePoint < 0x800 ∨
    length = 4 ∧ codePoint < 0x10000 ∨ codePoint > 0x10FFFF ∨
    0xD800 ≤ codePoint ∧ codePoint ≤ 0xDFFF)

def isControl (codePoint : Nat) : Bool :=
  decide (codePoint ≤ 0x1F ∨ 0x7F ≤ codePoint ∧ codePoint ≤ 0x9F)

/-- The loop of `DecodeUtf8` over the rest of the string. -/
def decodeUtf8From (codePoints : Nat) (hasControl : Bool) (value : Bytes) : Option (Nat × Bool) :=
  match value with
  | [] => some (codePoints, hasControl)
  | lead :: rest =>
    match leadByte lead with
    | none => none
    | some (bits, length) =>
      if rest.length + 1 < length then none
      else
        match continuation bits (rest.take (length - 1)) with
        | none => none
        | some codePoint =>
          if badCodePoint length codePoint then none
          else
            decodeUtf8From (codePoints + 1) (hasControl || isControl codePoint)
              (rest.drop (length - 1))
termination_by value.length
decreasing_by
  simp only [List.length_drop, List.length_cons]
  omega

/-- `DecodeUtf8`: the number of code points, and whether one is a control
character. -/
def decodeUtf8 (value : Bytes) : Option (Nat × Bool) := decodeUtf8From 0 false value

/-! ## The checks -/

/-- `RequiredIdentifier`. -/
def requiredIdentifier (field : String) (value : Bytes) : Option String :=
  if value.isEmpty then some (field ++ " is empty")
  else if value.length > idMaxLength then some (field ++ " exceeds maximum length")
  else if !isValidIdentifier value then some (field ++ " contains invalid characters")
  else none

def username (value : Bytes) : Option String :=
  if value.length < usernameMinLength ∨ value.length > usernameMaxLength then
    some "username length must be between 3 and 32"
  else if !isValidIdentifier value then some "username contains invalid characters"
  else none

def registerPassword (value : Bytes) : Option String :=
  if hasNul value then some "password contains NUL"
  else if value.length < registerPasswordMinLength ∨ value.length > passwordMaxLength then
    some "password length must be between 6 and 72"
  else none

def loginPassword (value : Bytes) : Option String :=
  if hasNul value then some "password contains NUL"
  else if value.isEmpty ∨ value.length > passwordMaxLength then
    some "password length must be between 1 and 72"
  else none

def nickname (value : Bytes) : Option String :=
  if value.isEmpty then some "nickname is empty"
  else
    match decodeUtf8 value with
    | none => some "nickname is not valid UTF-8"
    | some (codePoints, hasControl) =>
      if codePoints > nicknameMaxLength then some "nickname exceeds maximum length"
      else if hasControl then some "nickname contains control characters"
      else none

def messageContent (value : Bytes) : Option String :=
  if value.isEmpty then some "message content is empty"
  else if value.length > messageMaxBytes then some "message content exceeds maximum length"
  else if hasNul value then some "message content contains NUL"
  else none

def clientMessageId : Bytes → Option String := requiredIdentifier "client_msg_id"

def messageId : Bytes → Option String := requiredIdentifier "message_id"

def conversationId : Bytes → Option String := requiredIdentifier "conversation_id"

/-- An empty cursor starts from the beginning. -/
def cursor (value : Bytes) : Option String :=
  if value.isEmpty then none else requiredIdentifier "cursor" value

def token (value : Bytes) : Option String :=
  if value.length ≠ 64 ∨ !value.all isXDigit then
    some "token must contain 64 hexadecimal characters"
  else none

/-! ## How long what is accepted is -/

theorem length_of_accepted {field : String} {value : Bytes}
    (h : requiredIdentifier field value = none) : value.length ≤ 64 := by
  unfold requiredIdentifier at h
  split at h
  · cases h
  · split at h
    · cases h
    next hle => exact Nat.le_of_not_lt hle

theorem length_of_content {value : Bytes} (h : messageContent value = none) :
    value.length ≤ 4096 := by
  unfold messageContent at h
  split at h
  · cases h
  · split at h
    · cases h
    next hle => exact Nat.le_of_not_lt hle

/-! ## Texts of long code points -/

/-- A text of `n` code points of three bytes each. -/
def wideText (n : Nat) : Bytes := (List.replicate n [0xE4, 0xB8, 0xAD]).flatten

theorem length_wideText (n : Nat) : (wideText n).length = 3 * n := by
  induction n with
  | zero => rfl
  | succ n ih =>
    have hstep : wideText (n + 1) = [0xE4, 0xB8, 0xAD] ++ wideText n := rfl
    rw [hstep, List.length_append, ih]
    show 3 + 3 * n = 3 * (n + 1)
    omega

theorem decodeUtf8From_wideText (k n : Nat) :
    decodeUtf8From k false (wideText n) = some (k + n, false) := by
  induction n generalizing k with
  | zero => exact decodeUtf8From.eq_1 ..
  | succ n ih =>
    have hstep : wideText (n + 1) = 0xE4 :: 0xB8 :: 0xAD :: wideText n := rfl
    have hlead : leadByte 0xE4 = some (4, 3) := by decide
    have hcontinuation : continuation 4 [0xB8, 0xAD] = some 0x4E2D := by decide
    have hgood : badCodePoint 3 0x4E2D = false := by decide
    have hlength : ¬ (0xB8 :: 0xAD :: wideText n).length + 1 < 3 := by
      simp only [List.length_cons]
      omega
    have htake : (0xB8 :: 0xAD :: wideText n).take (3 - 1) = [0xB8, 0xAD] := rfl
    have hdrop : (0xB8 :: 0xAD :: wideText n).drop (3 - 1) = wideText n := rfl
    rw [hstep, decodeUtf8From, hlead]
    simp only [hlength, if_false, htake, hcontinuation, hgood, hdrop]
    have hcontrol : (false || isControl 0x4E2D) = false := by decide
    rw [if_neg Bool.false_ne_true, hcontrol, ih]
    congr 2
    omega

variable {n bits length : Nat} {lead : UInt8} {rest value : Bytes}

/-- Code points are counted, not bytes. -/
theorem nickname_wideText (hpos : 0 < n) (hle : n ≤ nicknameMaxLength) :
    nickname (wideText n) = none := by
  have hne : (wideText n).isEmpty = false := by
    cases n with
    | zero => omega
    | succ n => rfl
  have hdecode : decodeUtf8 (wideText n) = some (n, false) := by
    unfold decodeUtf8
    rw [decodeUtf8From_wideText, Nat.zero_add]
  unfold nickname
  rw [hne, hdecode]
  simp only [Bool.false_eq_true, if_false]
  rw [if_neg (by omega)]

/-! ## What `DecodeUtf8` decides -/

open Base Base.Utf8

/-- The mask tests of the lead byte, as arithmetic. -/
theorem leadByte_ofNat : ∀ {x : Nat}, x < 256 → leadByte (.ofNat x) =
    if x < 0x80 then some (x, 1) else if x < 0xC0 then none
    else if x < 0xE0 then some (x - 0xC0, 2) else if x < 0xF0 then some (x - 0xE0, 3)
    else if x < 0xF8 then some (x - 0xF0, 4) else none := by
  decide +kernel

theorem leadByte_eq_some (h : leadByte lead = some (bits, length)) :
    length = 1 ∧ bits < 128 ∧ lead = .ofNat bits ∨
      length = 2 ∧ bits < 32 ∧ lead = .ofNat (0xC0 + bits) ∨
      length = 3 ∧ bits < 16 ∧ lead = .ofNat (0xE0 + bits) ∨
      length = 4 ∧ bits < 8 ∧ lead = .ofNat (0xF0 + bits) := by
  obtain ⟨x, hx, rfl⟩ : ∃ x, x < 256 ∧ lead = .ofNat x :=
    ⟨lead.toNat, lead.toNat_lt, UInt8.ofNat_toNat.symm⟩
  rw [leadByte_ofNat hx] at h
  have hback {k : Nat} (hk : k ≤ x) : UInt8.ofNat x = .ofNat (k + (x - k)) := by
    rw [Nat.add_sub_cancel' hk]
  split_ifs at h with h1 h2 h3 h4 h5 <;> injection h with h <;> injection h with hbits hlength
  · exact .inl ⟨hlength.symm, by omega, by rw [hbits]⟩
  · exact .inr (.inl ⟨hlength.symm, by omega, hbits ▸ hback (by omega)⟩)
  · exact .inr (.inr (.inl ⟨hlength.symm, by omega, hbits ▸ hback (by omega)⟩))
  · exact .inr (.inr (.inr ⟨hlength.symm, by omega, hbits ▸ hback (by omega)⟩))

theorem leadByte_one {x : Nat} (hx : x < 128) : leadByte (.ofNat x) = some (x, 1) := by
  rw [leadByte_ofNat (by omega), if_pos hx]

theorem leadByte_two {x : Nat} (hx : x < 32) : leadByte (.ofNat (0xC0 + x)) = some (x, 2) := by
  rw [leadByte_ofNat (by omega), if_neg (by omega), if_neg (by omega), if_pos (by omega),
    Nat.add_sub_cancel_left]

theorem leadByte_three {x : Nat} (hx : x < 16) : leadByte (.ofNat (0xE0 + x)) = some (x, 3) := by
  rw [leadByte_ofNat (by omega), if_neg (by omega), if_neg (by omega), if_neg (by omega),
    if_pos (by omega), Nat.add_sub_cancel_left]

theorem leadByte_four {x : Nat} (hx : x < 8) : leadByte (.ofNat (0xF0 + x)) = some (x, 4) := by
  rw [leadByte_ofNat (by omega), if_neg (by omega), if_neg (by omega), if_neg (by omega),
    if_neg (by omega), if_pos (by omega), Nat.add_sub_cancel_left]

/-- The mask tests of a continuation byte, as arithmetic. -/
theorem continuationByte (b : UInt8) :
    (b &&& 0xC0 = 0x80 ↔ 0x80 ≤ b.toNat ∧ b.toNat < 0xC0) ∧ (b &&& 0x3F).toNat = b.toNat % 64 := by
  revert b
  exact forall_byte (by decide +kernel)

/-- A continuation byte adds six bits. -/
theorem continuation_ofNat {x : Nat} (codePoint : Nat) (hx : x < 64) (rest : Bytes) :
    continuation codePoint (.ofNat (0x80 + x) :: rest) =
      continuation (codePoint * 64 + x) rest := by
  obtain ⟨htop, hlow⟩ := continuationByte (.ofNat (0x80 + x))
  have hbyte : (UInt8.ofNat (0x80 + x)).toNat = 0x80 + x := by
    rw [UInt8.toNat_ofNat']
    omega
  rw [hbyte] at htop hlow
  have hbits : (0x80 + x) % 64 = x := by omega
  rw [continuation, if_pos (htop.mpr (by omega)), hlow, hbits,
    ← Nat.shiftLeft_add_eq_or_of_lt (b := x) (i := 6) hx, Nat.shiftLeft_eq]

/-- Only continuation bytes are gone over. -/
theorem continuation_cons_some {codePoint codePoint' : Nat} {b : UInt8}
    (h : continuation codePoint (b :: rest) = some codePoint') :
    ∃ x, x < 64 ∧ b = .ofNat (0x80 + x) ∧
      continuation (codePoint * 64 + x) rest = some codePoint' := by
  by_cases hb : b &&& 0xC0 = 0x80
  · obtain ⟨hlo, hhi⟩ := (continuationByte b).1.mp hb
    have hlt : b.toNat - 0x80 < 64 := by omega
    have heq : b = .ofNat (0x80 + (b.toNat - 0x80)) := by
      rw [Nat.add_sub_cancel' hlo, UInt8.ofNat_toNat]
    refine ⟨_, hlt, heq, ?_⟩
    rw [heq, continuation_ofNat codePoint hlt] at h
    exact h
  · rw [continuation, if_neg hb] at h
    cases h

/-- One round of the loop, with the character it reads in front. -/
theorem decodeUtf8From_append {more : Bytes} (k : Nat) (ctl : Bool) (rest : Bytes)
    (hlead : leadByte lead = some (bits, length)) (hlength : more.length = length - 1)
    (hcontinuation : continuation bits more = some n) (hgood : badCodePoint length n = false) :
    decodeUtf8From k ctl (lead :: more ++ rest) =
      decodeUtf8From (k + 1) (ctl || isControl n) rest := by
  have hfits : ¬ (more ++ rest).length + 1 < length := by
    rw [List.length_append]
    omega
  rw [List.cons_append, decodeUtf8From, hlead]
  dsimp only
  rw [if_neg hfits, List.take_left' hlength, hcontinuation]
  dsimp only
  rw [hgood, List.drop_left' hlength]
  rfl

theorem badCodePoint_eq_false :
    badCodePoint length n = false ↔
      (length = 2 → 0x80 ≤ n) ∧ (length = 3 → 0x800 ≤ n) ∧ (length = 4 → 0x10000 ≤ n) ∧
        IsScalar n := by
  unfold badCodePoint IsScalar
  rw [decide_eq_false_iff_not]
  omega

/-- The loop reads the encoding of a scalar value as that value. -/
theorem decodeUtf8From_encode (h : IsScalar n) (k : Nat) (ctl : Bool) (rest : Bytes) :
    decodeUtf8From k ctl (encode n ++ rest) =
      decodeUtf8From (k + 1) (ctl || isControl n) rest := by
  have hmax := h.2
  by_cases h1 : n < 0x80
  · rw [encode_one h1]
    refine decodeUtf8From_append k ctl rest (leadByte_one h1) rfl rfl ?_
    exact badCodePoint_eq_false.mpr ⟨by omega, by omega, by omega, h⟩
  by_cases h2 : n < 0x800
  · obtain ⟨x, y, hy, rfl⟩ : ∃ x y, y < 64 ∧ n = x * 64 + y :=
      ⟨n / 64, n % 64, by omega, by omega⟩
    rw [encode_two (by omega) (by omega) hy]
    refine decodeUtf8From_append k ctl rest (leadByte_two (by omega)) rfl ?_ ?_
    · rw [continuation_ofNat _ hy]
      rfl
    · exact badCodePoint_eq_false.mpr ⟨by omega, by omega, by omega, h⟩
  by_cases h3 : n < 0x10000
  · obtain ⟨x, y, z, hy, hz, rfl⟩ : ∃ x y z, y < 64 ∧ z < 64 ∧ n = (x * 64 + y) * 64 + z :=
      ⟨n / 4096, n / 64 % 64, n % 64, by omega, by omega, by omega⟩
    rw [encode_three (by omega) (by omega) hy hz]
    refine decodeUtf8From_append k ctl rest (leadByte_three (by omega)) rfl ?_ ?_
    · rw [continuation_ofNat _ hy, continuation_ofNat _ hz]
      rfl
    · exact badCodePoint_eq_false.mpr ⟨by omega, by omega, by omega, h⟩
  · obtain ⟨w, x, y, z, hx, hy, hz, rfl⟩ :
        ∃ w x y z, x < 64 ∧ y < 64 ∧ z < 64 ∧ n = ((w * 64 + x) * 64 + y) * 64 + z :=
      ⟨n / 262144, n / 4096 % 64, n / 64 % 64, n % 64, by omega, by omega, by omega, by omega⟩
    rw [encode_four (by omega) hx hy hz]
    refine decodeUtf8From_append k ctl rest (leadByte_four (by omega)) rfl ?_ ?_
    · rw [continuation_ofNat _ hx, continuation_ofNat _ hy, continuation_ofNat _ hz]
      rfl
    · exact badCodePoint_eq_false.mpr ⟨by omega, by omega, by omega, h⟩

/-- The bytes of one round are the encoding of the code point they give. -/
theorem take_eq_encode (hlead : leadByte lead = some (bits, length))
    (hfits : length ≤ rest.length + 1)
    (hcontinuation : continuation bits (rest.take (length - 1)) = some n)
    (hgood : badCodePoint length n = false) : lead :: rest.take (length - 1) = encode n := by
  obtain ⟨h2, h3, h4, -⟩ := badCodePoint_eq_false.mp hgood
  obtain ⟨rfl, hbits, rfl⟩ | ⟨rfl, hbits, rfl⟩ | ⟨rfl, hbits, rfl⟩ | ⟨rfl, hbits, rfl⟩ :=
    leadByte_eq_some hlead
  · obtain rfl : bits = n := Option.some.inj hcontinuation
    exact (encode_one hbits).symm
  · obtain _ | ⟨b, rest⟩ := rest
    · exact absurd hfits (by decide)
    obtain ⟨y, hy, rfl, hend⟩ := continuation_cons_some hcontinuation
    obtain rfl := Option.some.inj hend
    exact (encode_two (h2 rfl) hbits hy).symm
  · obtain _ | ⟨b, _ | ⟨b', rest⟩⟩ := rest
    · exact absurd hfits (by decide)
    · exact absurd hfits (by simp)
    obtain ⟨y, hy, rfl, hmore⟩ := continuation_cons_some hcontinuation
    obtain ⟨z, hz, rfl, hend⟩ := continuation_cons_some hmore
    obtain rfl := Option.some.inj hend
    exact (encode_three (h3 rfl) hbits hy hz).symm
  · obtain _ | ⟨b, _ | ⟨b', _ | ⟨b'', rest⟩⟩⟩ := rest
    · exact absurd hfits (by decide)
    · exact absurd hfits (by simp)
    · exact absurd hfits (by simp)
    obtain ⟨x, hx, rfl, hmore⟩ := continuation_cons_some hcontinuation
    obtain ⟨y, hy, rfl, hlast⟩ := continuation_cons_some hmore
    obtain ⟨z, hz, rfl, hend⟩ := continuation_cons_some hlast
    obtain rfl := Option.some.inj hend
    exact (encode_four (h4 rfl) hx hy hz).symm

/-- What the loop has read when it goes on. -/
theorem exists_encode_of_decode {k : Nat} {ctl : Bool} {r : Nat × Bool}
    (h : decodeUtf8From k ctl (lead :: rest) = some r) :
    ∃ n more, IsScalar n ∧ lead :: rest = encode n ++ more := by
  rw [decodeUtf8From] at h
  cases hlead : leadByte lead with
  | none =>
    rw [hlead] at h
    cases h
  | some x =>
    obtain ⟨bits, length⟩ := x
    rw [hlead] at h
    dsimp only at h
    by_cases hfits : rest.length + 1 < length
    · rw [if_pos hfits] at h
      cases h
    rw [if_neg hfits] at h
    cases hcontinuation : continuation bits (rest.take (length - 1)) with
    | none =>
      rw [hcontinuation] at h
      cases h
    | some n =>
      rw [hcontinuation] at h
      dsimp only at h
      cases hgood : badCodePoint length n with
      | true =>
        rw [hgood, if_pos rfl] at h
        cases h
      | false =>
        obtain ⟨-, -, -, hscalar⟩ := badCodePoint_eq_false.mp hgood
        refine ⟨n, rest.drop (length - 1), hscalar, ?_⟩
        rw [← take_eq_encode hlead (Nat.le_of_not_lt hfits) hcontinuation hgood,
          List.cons_append, List.take_append_drop]

theorem decodeUtf8From_spell (cs : List Char) (k : Nat) (ctl : Bool) :
    decodeUtf8From k ctl (spell cs) =
      some (k + cs.length, ctl || cs.any fun c => isControl c.toNat) := by
  induction cs generalizing k ctl with
  | nil => rw [spell_nil, decodeUtf8From, List.any_nil, Bool.or_false, List.length_nil, Nat.add_zero]
  | cons c cs ih =>
    rw [spell_cons, decodeUtf8From_encode (isScalar_char c), ih, List.any_cons, Bool.or_assoc,
      List.length_cons, Nat.add_assoc, Nat.add_comm 1]

theorem exists_spell_of_decode {k : Nat} {ctl : Bool} {r : Nat × Bool}
    (h : decodeUtf8From k ctl value = some r) : ∃ cs, spell cs = value := by
  -- one character at a time, on the length of what remains
  induction hlen : value.length using Nat.strongRecOn generalizing value k ctl with
  | ind m ih =>
    cases value with
    | nil => exact ⟨[], rfl⟩
    | cons lead rest =>
      obtain ⟨n, more, hn, heq⟩ := exists_encode_of_decode h
      have hshort : more.length < m := by
        have hlength := congrArg List.length heq
        have hpos := length_encode_pos n
        rw [List.length_append, hlen] at hlength
        omega
      rw [heq, decodeUtf8From_encode hn] at h
      obtain ⟨cs, hcs⟩ := ih _ hshort h rfl
      obtain ⟨c, rfl⟩ := exists_char hn
      exact ⟨c :: cs, by rw [spell_cons, hcs, heq]⟩

theorem decodeUtf8_eq_some {codePoints : Nat} {hasControl : Bool} :
    decodeUtf8 value = some (codePoints, hasControl) ↔
      ∃ cs, spell cs = value ∧ codePoints = cs.length ∧
        hasControl = cs.any fun c => isControl c.toNat := by
  constructor
  · intro h
    obtain ⟨cs, rfl⟩ := exists_spell_of_decode h
    rw [decodeUtf8, decodeUtf8From_spell, Nat.zero_add, Bool.false_or] at h
    injection h with h
    injection h with hcount hcontrol
    exact ⟨cs, rfl, hcount.symm, hcontrol.symm⟩
  · rintro ⟨cs, rfl, rfl, rfl⟩
    rw [decodeUtf8, decodeUtf8From_spell, Nat.zero_add, Bool.false_or]

/-- A control character of the ranges C0, DEL and C1. -/
def Control (c : Char) : Prop := c.toNat ≤ 0x1F ∨ 0x7F ≤ c.toNat ∧ c.toNat ≤ 0x9F

theorem any_isControl {cs : List Char} :
    (cs.any fun c => isControl c.toNat) = true ↔ ∃ c ∈ cs, Control c := by
  rw [List.any_eq_true]
  refine exists_congr fun c => and_congr_right fun _ => ?_
  exact decide_eq_true_iff

/-- `Nickname`, over what `DecodeUtf8` reports. -/
theorem nickname_eq_none :
    nickname value = none ↔
      ∃ n, decodeUtf8 value = some (n, false) ∧ value ≠ [] ∧ n ≤ nicknameMaxLength := by
  unfold nickname
  cases value with
  | nil => simp
  | cons b value =>
    cases decodeUtf8 (b :: value) with
    | none => simp
    | some x =>
      obtain ⟨n, ctl⟩ := x
      by_cases hlong : n > nicknameMaxLength
      · simp [hlong]
      · have hle : n ≤ nicknameMaxLength := Nat.le_of_not_lt hlong
        cases ctl <;> simp [hlong, hle]

/-- `DecodeUtf8` accepts exactly the well-formed strings, counts the scalar
values of their only decoding and finds the control characters among them;
`Nickname` accepts those of 1 to 64 scalar values without control characters. -/
theorem decode_utf8_exact (value : Bytes) :
    ((decodeUtf8 value).isSome = true ↔ WellFormed value) ∧
      (WellFormed value ↔ ∃! cs, spell cs = value) ∧
      (∀ codePoints hasControl, decodeUtf8 value = some (codePoints, hasControl) ↔
        ∃ cs, spell cs = value ∧ codePoints = cs.length ∧
          (hasControl = true ↔ ∃ c ∈ cs, Control c)) ∧
      (nickname value = none ↔
        ∃ cs, spell cs = value ∧ 1 ≤ cs.length ∧ cs.length ≤ 64 ∧ ∀ c ∈ cs, ¬ Control c) := by
  refine ⟨?_, ?_, ?_, ?_⟩
  · rw [wellFormed_iff, Option.isSome_iff_exists]
    constructor
    · rintro ⟨⟨n, ctl⟩, h⟩
      obtain ⟨cs, hcs, -⟩ := decodeUtf8_eq_some.mp h
      exact ⟨cs, hcs⟩
    · rintro ⟨cs, hcs⟩
      exact ⟨_, decodeUtf8_eq_some.mpr ⟨cs, hcs, rfl, rfl⟩⟩
  · rw [wellFormed_iff]
    constructor
    · rintro ⟨cs, rfl⟩
      exact ⟨cs, rfl, fun ds hds => spell_injective hds⟩
    · exact ExistsUnique.exists
  · intro n ctl
    rw [decodeUtf8_eq_some]
    refine exists_congr fun cs => and_congr_right fun _ => and_congr_right fun _ => ?_
    rw [← any_isControl, Bool.eq_iff_iff]
  · rw [nickname_eq_none]
    constructor
    · rintro ⟨n, h, hne, hle⟩
      obtain ⟨cs, hcs, rfl, hcontrol⟩ := decodeUtf8_eq_some.mp h
      refine ⟨cs, hcs, ?_, hle, fun c hc hctl => ?_⟩
      · rw [← hcs] at hne
        exact List.length_pos_of_ne_nil fun hnil => hne (by rw [hnil, spell_nil])
      · exact Bool.false_ne_true (hcontrol.trans (any_isControl.mpr ⟨c, hc, hctl⟩))
    · rintro ⟨cs, hcs, hpos, hle, hcontrol⟩
      refine ⟨cs.length, decodeUtf8_eq_some.mpr ⟨cs, hcs, rfl, ?_⟩, ?_, hle⟩
      · refine (Bool.eq_false_iff.mpr fun hany => ?_).symm
        obtain ⟨c, hc, hctl⟩ := any_isControl.mp hany
        exact hcontrol c hc hctl
      · rintro rfl
        have hnil : cs = [] := spell_injective (hcs.trans spell_nil.symm)
        rw [hnil] at hpos
        exact absurd hpos (Nat.lt_irrefl 0)

end ChatServer.Validator
