import EchoNet.Lib.BigEndian
import Mathlib.Data.List.DropRight

/-!
# Texts of the Client

`QString`, as far as the client uses it.  A text is the list of its Unicode scalar values; its
`size` counts UTF-16 code units, and what goes to the network is its UTF-8 form.  The two lengths
agree on ASCII texts, and on no other: `size_eq_length_toUtf8_iff`.
-/

namespace EchoNet.Client

open EchoNet.Lib

/-- `QString`. -/
abbrev QString := List Char

namespace QString

/-- The UTF-16 code units of a character. -/
def units (c : Char) : Nat := if c.val < 0x10000 then 1 else 2

/-- `QString::size`. -/
def size (s : QString) : Nat := (s.map units).sum

/-- `QString::toUtf8`. -/
def toUtf8 (s : QString) : Bytes := s.flatMap String.utf8EncodeChar

/-- `QChar::isSpace`. -/
def isSpace (c : Char) : Bool :=
  c.val = 0x20 || (0x09 ≤ c.val && c.val ≤ 0x0D) || c.val = 0x85 || c.val = 0xA0 ||
    c.val = 0x1680 || (0x2000 ≤ c.val && c.val ≤ 0x200A) || c.val = 0x2028 || c.val = 0x2029 ||
    c.val = 0x202F || c.val = 0x205F || c.val = 0x3000

/-- `QString::trimmed`. -/
def trimmed (s : QString) : QString := (s.dropWhile isSpace).rdropWhile isSpace

example : trimmed " a b\n".toList = "a b".toList := by decide

@[simp] theorem toUtf8_nil : toUtf8 [] = [] := rfl

@[simp] theorem toUtf8_cons (c : Char) (s : QString) :
    toUtf8 (c :: s) = String.utf8EncodeChar c ++ toUtf8 s := rfl

@[simp] theorem toUtf8_append (s t : QString) : toUtf8 (s ++ t) = toUtf8 s ++ toUtf8 t :=
  List.flatMap_append ..

@[simp] theorem size_cons (c : Char) (s : QString) : size (c :: s) = units c + size s := by
  simp [size]

/-- A character that is one byte in UTF-8. -/
def IsAscii (c : Char) : Prop := c.val ≤ 0x7F

instance (c : Char) : Decidable (IsAscii c) := inferInstanceAs (Decidable (_ ≤ _))

theorem units_le_length (c : Char) :
    units c ≤ (String.utf8EncodeChar c).length ∧
      (units c = (String.utf8EncodeChar c).length ↔ IsAscii c) := by
  rw [String.length_utf8EncodeChar]
  unfold units Char.utf8Size IsAscii
  simp only [UInt32.le_iff_toNat_le, UInt32.lt_iff_toNat_lt, UInt32.reduceToNat,
    UInt32.toNat_ofNatLT]
  split_ifs <;> omega

/-- No text is longer in UTF-16 units than in bytes, and only an ASCII text is as long. -/
theorem size_le_length_toUtf8 (s : QString) :
    size s ≤ (toUtf8 s).length ∧ (size s = (toUtf8 s).length ↔ ∀ c ∈ s, IsAscii c) := by
  induction s with
  | nil => exact ⟨le_refl 0, by simp [size]⟩
  | cons c s ih =>
    obtain ⟨hle, hiff⟩ := units_le_length c
    rw [size_cons, toUtf8_cons, List.length_append, List.forall_mem_cons, ← hiff, ← ih.2]
    have hrest := ih.1
    omega

end QString

end EchoNet.Client
