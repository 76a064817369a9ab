import Mathlib.Data.List.Induction
import Mathlib.Tactic.Ring

/-!
# Big-Endian Byte Strings

Fixed-width big-endian encodings of natural numbers, as `htonl`/`htons` lay them out.
`beEncode w n` is the `w`-byte encoding of `n` modulo `256 ^ w`; `beDecode` reads a byte
string of any length.  They are inverse to each other in both directions.
-/

namespace EchoNet.Lib

/-- Byte strings. -/
abbrev Bytes := List UInt8

/-- The number a byte string denotes, most significant byte first. -/
def beDecode (bs : Bytes) : Nat := bs.foldl (fun acc b => acc * 256 + b.toNat) 0

/-- The `w`-byte big-endian encoding of `n % 256 ^ w`. -/
def beEncode : Nat → Nat → Bytes
  | 0, _ => []
  | w + 1, n => beEncode w (n / 256) ++ [UInt8.ofNat n]

@[simp] theorem beEncode_length (w n : Nat) : (beEncode w n).length = w := by
  induction w generalizing n with
  | zero => rfl
  | succ w ih => simp [beEncode, ih]

theorem beDecode_concat (bs : Bytes) (b : UInt8) :
    beDecode (bs ++ [b]) = beDecode bs * 256 + b.toNat := by
  simp [beDecode]

/-- Decoding an encoding gives the number back, modulo the width. -/
theorem beDecode_beEncode (w n : Nat) : beDecode (beEncode w n) = n % 256 ^ w := by
  induction w generalizing n with
  | zero => simp [beEncode, beDecode, Nat.mod_one]
  | succ w ih =>
    rw [beEncode, beDecode_concat, ih, UInt8.toNat_ofNat']
    have hpow : 256 ^ (w + 1) = 256 * 256 ^ w := by ring
    rw [hpow, Nat.mod_mul]
    omega

theorem beDecode_lt (bs : Bytes) : beDecode bs < 256 ^ bs.length := by
  induction bs using List.reverseRecOn with
  | nil => simp [beDecode]
  | append_singleton bs b ih =>
    rw [beDecode_concat, List.length_append, List.length_singleton, pow_succ]
    have hb : b.toNat < 256 := UInt8.toNat_lt b
    omega

/-- Encoding what a byte string denotes gives the byte string back. -/
theorem beEncode_beDecode (bs : Bytes) : beEncode bs.length (beDecode bs) = bs := by
  induction bs using List.reverseRecOn with
  | nil => rfl
  | append_singleton bs b ih =>
    have hb : b.toNat < 256 := UInt8.toNat_lt b
    have hdiv : (beDecode bs * 256 + b.toNat) / 256 = beDecode bs := by omega
    have hlast : UInt8.ofNat (beDecode bs * 256 + b.toNat) = b := by
      apply UInt8.toNat_inj.mp
      rw [UInt8.toNat_ofNat']
      omega
    rw [List.length_append, List.length_singleton, beEncode, beDecode_concat, hdiv, ih, hlast]

end EchoNet.Lib
