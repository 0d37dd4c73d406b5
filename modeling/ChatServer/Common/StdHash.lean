import ChatServer.Common.Types

/-!
# `std::hash<std::string>`

The C++ standard leaves the function open; this is the one of libstdc++ on 64 bits
(`_Hash_bytes`, a Murmur hash). Statements about the server hold for every hash
function; this one is for runs on fixed inputs and for `LegacyLibstdcxxHash`.
-/

namespace ChatServer

/-- `shift_mix`. -/
def shiftMix (v : UInt64) : UInt64 := v ^^^ (v >>> 47)

def hashMul : UInt64 := 0xc6a4a7935bd1e995

/-- Up to eight bytes as a number, the first one the lowest. -/
def loadBytes (bytes : Bytes) : UInt64 := bytes.foldr (fun b v => v <<< 8 ||| b.toUInt64) 0

/-- The loop over whole words, and the bytes that are left. -/
def hashWords (hash : UInt64) : Bytes → UInt64
  | b₀ :: b₁ :: b₂ :: b₃ :: b₄ :: b₅ :: b₆ :: b₇ :: rest =>
    let data := shiftMix (loadBytes [b₀, b₁, b₂, b₃, b₄, b₅, b₆, b₇] * hashMul) * hashMul
    hashWords ((hash ^^^ data) * hashMul) rest
  | [] => hash
  | rest => (hash ^^^ loadBytes rest) * hashMul

/-- `std::hash<std::string>`. -/
def stdHash (text : Bytes) : Nat :=
  let seed : UInt64 := 0xc70f6907
  let hash := hashWords (seed ^^^ (.ofNat text.length * hashMul)) text
  (shiftMix (shiftMix hash * hashMul)).toNat

example : stdHash (str "grp_0:m1:2") = 0xf682e1e9d8881b86 := by decide +kernel

end ChatServer
