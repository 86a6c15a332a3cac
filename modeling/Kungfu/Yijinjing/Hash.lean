import Mathlib.Data.Nat.Notation

/-!
# Hashes

`MurmurHash3_x86_32`, and the hash of a string that uids and map keys are made from.
-/

namespace Kungfu.Yijinjing

namespace Murmur

def rotl32 (x : UInt32) (r : UInt32) : UInt32 := (x <<< r) ||| (x >>> (32 - r))

/-- `fmix32`. -/
def fmix32 (h : UInt32) : UInt32 :=
  let h := h ^^^ (h >>> 16)
  let h := h * 0x85ebca6b
  let h := h ^^^ (h >>> 13)
  let h := h * 0xc2b2ae35
  h ^^^ (h >>> 16)

/-- The body of `MurmurHash3_x86_32` for one block. -/
def block (h k : UInt32) : UInt32 :=
  let k := k * 0xcc9e2d51
  let k := rotl32 k 15
  let k := k * 0x1b873593
  let h := h ^^^ k
  let h := rotl32 h 13
  h * 5 + 0xe6546b64

/-- The tail of `MurmurHash3_x86_32`: at most three bytes that fill no block. -/
def tail (h : UInt32) (bytes : List UInt8) : UInt32 :=
  let k := bytes.foldr (fun b (k : UInt32) => (k <<< 8) ^^^ b.toUInt32) 0
  let k := k * 0xcc9e2d51
  let k := rotl32 k 15
  let k := k * 0x1b873593
  h ^^^ k

/-- The blocks of four bytes, and then the tail. -/
def body (h : UInt32) : List UInt8 → UInt32
  | b₀ :: b₁ :: b₂ :: b₃ :: rest =>
      let k := b₀.toUInt32 ||| (b₁.toUInt32 <<< 8) ||| (b₂.toUInt32 <<< 16) ||| (b₃.toUInt32 <<< 24)
      body (block h k) rest
  | [] => h
  | bytes => tail h bytes

end Murmur

/-- `hash_32`: `MurmurHash3_x86_32` with the seed `KUNGFU_HASH_SEED`. -/
def hash32 (key : List UInt8) : UInt32 :=
  Murmur.fmix32 (Murmur.body 42 key ^^^ UInt32.ofNat key.length)

/-- `hash_str_32`. -/
def hashStr32 (key : String) : UInt32 := hash32 key.toUTF8.toList

end Kungfu.Yijinjing
