import EchoNet.Lib.BigEndian
import Mathlib.Data.List.TakeWhile

/-!
# Byte Texts

The part of `std::string` that byte-oriented protocols use: literals, decimal numbers, the split
at a separator, lines and words.

- `stoul_toDecimal`: a number that was written is read back;
- `splitFirst_append`: so is a field before a separator that it does not have;
- `findCrlf_append`, `findCrlf_eq_some`: so is a line in front of its end, and nothing else;
- `nextWord_append_of_word`: a word ends at the first blank behind it.
-/

namespace EchoNet.Lib

/-- An ASCII literal as bytes. -/
def ascii (s : String) : Bytes := s.toList.map fun c => UInt8.ofNat c.toNat

/-- `std::to_string` of an unsigned number. -/
def toDecimal (n : Nat) : Bytes := (Nat.toDigits 10 n).map fun c => UInt8.ofNat c.toNat

/-- `std::to_string` of a `size_t`. -/
def sizeToDecimal (n : Nat) : Bytes := toDecimal (n % 2 ^ 64)

theorem length_toDecimal_le {n k : Nat} (hk : 0 < k) (h : n < 10 ^ k) :
    (toDecimal n).length ≤ k := by
  rw [toDecimal, List.length_map, Nat.length_toDigits_le_iff (by decide) hk]
  exact h

theorem length_sizeToDecimal_le (n : Nat) : (sizeToDecimal n).length ≤ 20 :=
  length_toDecimal_le (by decide) (Nat.lt_trans (Nat.mod_lt n (by decide)) (by decide))

/-- `find` of the first separator, with the `substr` before and after it. -/
def splitFirst (sep : UInt8) (s : Bytes) : Option (Bytes × Bytes) :=
  if sep ∈ s then some (s.takeWhile (· ≠ sep), (s.dropWhile (· ≠ sep)).drop 1) else none

/-- `isspace` in the C locale. -/
def isSpace (b : UInt8) : Bool := b = 0x20 || (0x09 ≤ b && b ≤ 0x0D)

/-- `isdigit`. -/
def isDigit (b : UInt8) : Bool := 0x30 ≤ b && b ≤ 0x39

/-- The number a string of decimal digits denotes. -/
def decimalValue (digits : Bytes) : Nat :=
  digits.foldl (fun acc b => acc * 10 + (b.toNat - 0x30)) 0

/-- `std::stoul`: leading blanks, an optional sign, the longest run of digits.  `none` stands
for the exceptions: no digit, or a magnitude above `ULONG_MAX`.  A minus sign negates in
`unsigned long`. -/
def stoul (s : Bytes) : Option UInt64 :=
  let s := s.dropWhile isSpace
  let (negative, s) := match s with
    | 0x2B :: rest => (false, rest)
    | 0x2D :: rest => (true, rest)
    | _ => (false, s)
  let digits := s.takeWhile isDigit
  if digits.isEmpty then none
  else if 2 ^ 64 ≤ decimalValue digits then none
  else
    let n := UInt64.ofNat (decimalValue digits)
    some (if negative then 0 - n else n)

example : stoul (ascii " +42x") = some 42 := by decide

/-- What a text denotes to `std::stoi` and `std::stoul`, before they look at its range. -/
def numeral (s : Bytes) : Option Int :=
  let s := s.dropWhile isSpace
  let (negative, s) := match s with
    | 0x2B :: rest => (false, rest)
    | 0x2D :: rest => (true, rest)
    | _ => (false, s)
  let digits := s.takeWhile isDigit
  if digits.isEmpty then none
  else some (if negative then -(decimalValue digits : Int) else decimalValue digits)

/-- `std::stoi`: `none` stands for the exceptions. -/
def stoi (s : Bytes) : Option Int := (numeral s).filter fun v => -2 ^ 31 ≤ v ∧ v < 2 ^ 31

/-! ## Round trips -/

theorem toNat_of_mem_toDigits {n : Nat} {c : Char} (h : c ∈ Nat.toDigits 10 n) :
    48 ≤ c.toNat ∧ c.toNat ≤ 57 := by
  have hdigit := Nat.isDigit_of_mem_toDigits (by decide) (by decide) h
  simpa [Char.isDigit, UInt32.le_iff_toNat_le] using hdigit

theorem isDigit_of_mem_toDecimal {n : Nat} {b : UInt8} (h : b ∈ toDecimal n) :
    isDigit b = true := by
  obtain ⟨c, hc, rfl⟩ := List.mem_map.mp h
  have hrange := toNat_of_mem_toDigits hc
  have hb : (UInt8.ofNat c.toNat).toNat = c.toNat :=
    UInt8.toNat_ofNat_of_lt' (show c.toNat < 2 ^ 8 by omega)
  simp [isDigit, UInt8.le_iff_toNat_le, hb, hrange]

theorem toDecimal_ne_nil (n : Nat) : toDecimal n ≠ [] := by
  simp [toDecimal]

theorem decimalValue_toDecimal (n : Nat) : decimalValue (toDecimal n) = n := by
  have hfold : ∀ (cs : List Char) (acc : Nat), (∀ c ∈ cs, c.toNat < 256) →
      (cs.map fun c => UInt8.ofNat c.toNat).foldl (fun acc b => acc * 10 + (b.toNat - 0x30)) acc =
        Nat.ofDigitChars 10 cs acc := by
    intro cs
    induction cs with
    | nil => exact fun acc _ => rfl
    | cons c cs ih =>
      intro acc h
      rw [List.forall_mem_cons] at h
      have hc : (UInt8.ofNat c.toNat).toNat = c.toNat := UInt8.toNat_ofNat_of_lt' h.1
      rw [List.map_cons, List.foldl_cons, ih _ h.2, hc, Nat.ofDigitChars_cons, Nat.mul_comm]
      rfl
  refine (hfold _ 0 fun c hc => ?_).trans Nat.ofDigitChars_ten_toDigits
  have hrange := toNat_of_mem_toDigits hc
  omega

/-- A digit is neither a blank nor a sign. -/
theorem ne_of_isDigit {b : UInt8} (h : isDigit b = true) :
    isSpace b = false ∧ b ≠ 0x2B ∧ b ≠ 0x2D := by
  have hb : 48 ≤ b.toNat := by
    rw [isDigit, Bool.and_eq_true, decide_eq_true_iff, UInt8.le_iff_toNat_le] at h
    exact h.1
  refine ⟨?_, ?_, ?_⟩
  · simp only [isSpace, Bool.or_eq_false_iff, decide_eq_false_iff_not, Bool.and_eq_false_iff,
      UInt8.le_iff_toNat_le, ← UInt8.toNat_inj, UInt8.reduceToNat]
    omega
  · rintro rfl
    exact absurd hb (by decide)
  · rintro rfl
    exact absurd hb (by decide)

theorem ofInt_natCast (n : Nat) : UInt64.ofInt n = UInt64.ofNat n := by
  have hmod : ((n : Int) % 2 ^ 64).toNat = n % 2 ^ 64 := by omega
  rw [UInt64.ofInt, hmod]
  exact UInt64.ofNat_mod_size

/-- `std::stoul` takes any magnitude that fits, and reads it modulo 2^64. -/
theorem stoul_eq_numeral (s : Bytes) :
    stoul s = (numeral s).bind fun v =>
      if v.natAbs < 2 ^ 64 then some (UInt64.ofInt v) else none := by
  have hsign : ∀ (negative : Bool) (digits : Bytes),
      (if digits.isEmpty then none
        else if 2 ^ 64 ≤ decimalValue digits then none
        else
          let n := UInt64.ofNat (decimalValue digits)
          some (if negative then 0 - n else n)) =
      Option.bind (if digits.isEmpty then none
        else some (if negative then -(decimalValue digits : Int) else decimalValue digits)) fun v =>
          if v.natAbs < 2 ^ 64 then some (UInt64.ofInt v) else none := by
    intro negative digits
    split_ifs with hempty hbig hneg hneg
    · rfl
    · rw [Option.bind_some, Int.natAbs_neg, Int.natAbs_natCast, if_neg (Nat.not_lt.mpr hbig)]
    · rw [Option.bind_some, Int.natAbs_natCast, if_neg (Nat.not_lt.mpr hbig)]
    · rw [Option.bind_some, Int.natAbs_neg, Int.natAbs_natCast, if_pos (Nat.not_le.mp hbig),
        UInt64.ofInt_neg, ofInt_natCast]
      exact congrArg some (UInt64.zero_sub _)
    · rw [Option.bind_some, Int.natAbs_natCast, if_pos (Nat.not_le.mp hbig), ofInt_natCast]
  exact hsign _ _

/-- Digits denote their value. -/
theorem numeral_of_isDigit {digits : Bytes} (hne : digits ≠ [])
    (hdigits : ∀ b ∈ digits, isDigit b = true) :
    numeral digits = some (decimalValue digits : Int) := by
  cases digits with
  | nil => exact absurd rfl hne
  | cons b bs =>
    obtain ⟨hspace, hplus, hminus⟩ := ne_of_isDigit (hdigits b List.mem_cons_self)
    have htake : (b :: bs).takeWhile isDigit = b :: bs := List.takeWhile_eq_self_iff.mpr hdigits
    unfold numeral
    rw [List.dropWhile_cons_of_neg (by simp [hspace])]
    dsimp only
    split
    next heq => exact absurd (List.cons.inj heq).1 hplus
    next heq => exact absurd (List.cons.inj heq).1 hminus
    next =>
      dsimp only
      rw [htake, if_neg (by simp)]
      rfl

/-- `std::stoul` reads any digits. -/
theorem stoul_of_isDigit {digits : Bytes} (hne : digits ≠ [])
    (hdigits : ∀ b ∈ digits, isDigit b = true) (h : decimalValue digits < 2 ^ 64) :
    stoul digits = some (UInt64.ofNat (decimalValue digits)) := by
  rw [stoul_eq_numeral, numeral_of_isDigit hne hdigits, Option.bind_some, Int.natAbs_natCast,
    if_pos h, ofInt_natCast]

/-- `std::stoul` reads back what `std::to_string` wrote. -/
theorem stoul_toDecimal {n : Nat} (h : n < 2 ^ 64) :
    stoul (toDecimal n) = some (UInt64.ofNat n) := by
  have hvalue := decimalValue_toDecimal n
  have hread := stoul_of_isDigit (toDecimal_ne_nil n) (fun _ => isDigit_of_mem_toDecimal)
    (hvalue.trans_lt h)
  rwa [hvalue] at hread

theorem stoul_sizeToDecimal (n : Nat) : stoul (sizeToDecimal n) = some (UInt64.ofNat n) := by
  rw [sizeToDecimal, stoul_toDecimal (Nat.mod_lt n (by decide))]
  congr 1
  exact UInt64.ofNat_mod_size

theorem splitFirst_append {sep : UInt8} {a : Bytes} (h : sep ∉ a) (b : Bytes) :
    splitFirst sep (a ++ sep :: b) = some (a, b) := by
  have hne : ∀ c ∈ a, decide (c ≠ sep) = true := fun c hc =>
    decide_eq_true fun heq => h (heq ▸ hc)
  unfold splitFirst
  rw [if_pos (List.mem_append_right _ List.mem_cons_self),
    List.takeWhile_append_of_pos hne, List.dropWhile_append_of_pos hne]
  simp

theorem splitFirst_eq_none {sep : UInt8} {s : Bytes} : splitFirst sep s = none ↔ sep ∉ s := by
  simp [splitFirst]

/-- A split is at the first separator. -/
theorem splitFirst_eq_some {sep : UInt8} {s a b : Bytes} :
    splitFirst sep s = some (a, b) ↔ s = a ++ sep :: b ∧ sep ∉ a := by
  constructor
  · intro h
    by_cases hmem : sep ∈ s
    · obtain ⟨pre, post, rfl, hpre⟩ := List.eq_append_cons_of_mem hmem
      rw [splitFirst_append hpre] at h
      cases h
      exact ⟨rfl, hpre⟩
    · rw [splitFirst_eq_none.mpr hmem] at h
      cases h
  · rintro ⟨rfl, ha⟩
    exact splitFirst_append ha b

/-! ## Lines and words -/

/-- `find("\r\n")`. -/
def findCrlf : Bytes → Option Nat
  | 0x0D :: 0x0A :: _ => some 0
  | _ :: bs => (findCrlf bs).map (· + 1)
  | [] => none

/-- `operator>>` into a `std::string`: a word, and what is behind it. -/
def nextWord (s : Bytes) : Bytes × Bytes :=
  let s := s.dropWhile isSpace
  (s.takeWhile fun b => !isSpace b, s.dropWhile fun b => !isSpace b)

theorem findCrlf_cons_of_ne {b : UInt8} {bs : Bytes} (h : ∀ tail, b :: bs ≠ 0x0D :: 0x0A :: tail) :
    findCrlf (b :: bs) = (findCrlf bs).map (· + 1) := by
  conv_lhs => unfold findCrlf
  split
  next tail heq => exact absurd heq (h tail)
  next heq =>
    cases heq
    rfl
  next heq => cases heq

theorem findCrlf_eq_none {line : Bytes} (h : 0x0D ∉ line) : findCrlf line = none := by
  induction line with
  | nil => rfl
  | cons b bs ih =>
    rw [List.mem_cons, not_or] at h
    rw [findCrlf_cons_of_ne, ih h.2]
    · rfl
    · intro tail heq
      exact h.1 (List.cons.inj heq).1.symm

/-- A line is found at its end. -/
theorem findCrlf_append {line : Bytes} (h : findCrlf line = none) (rest : Bytes) :
    findCrlf (line ++ 0x0D :: 0x0A :: rest) = some line.length := by
  induction line with
  | nil => rfl
  | cons b bs ih =>
    have hne : ∀ tail, b :: bs ≠ 0x0D :: 0x0A :: tail := by
      rintro tail heq
      rw [heq] at h
      cases h
    rw [findCrlf_cons_of_ne hne, Option.map_eq_none_iff] at h
    rw [List.cons_append, findCrlf_cons_of_ne, ih h]
    · rfl
    -- the end of the line does not come earlier by what follows it
    · intro tail heq
      cases bs with
      | nil => cases heq
      | cons c bs =>
        obtain ⟨hb, htail⟩ := List.cons.inj heq
        exact hne bs (by rw [hb, (List.cons.inj htail).1])

/-- What is found is the first line, and what is behind it. -/
theorem findCrlf_eq_some {bs : Bytes} {n : Nat} (h : findCrlf bs = some n) :
    bs = bs.take n ++ 0x0D :: 0x0A :: bs.drop (n + 2) ∧ findCrlf (bs.take n) = none := by
  induction bs generalizing n with
  | nil => cases h
  | cons b bs ih =>
    by_cases hcrlf : ∃ tail, b :: bs = 0x0D :: 0x0A :: tail
    · obtain ⟨tail, heq⟩ := hcrlf
      rw [heq] at h ⊢
      cases h
      exact ⟨rfl, rfl⟩
    · have hne : ∀ tail, b :: bs ≠ 0x0D :: 0x0A :: tail := fun tail heq => hcrlf ⟨tail, heq⟩
      rw [findCrlf_cons_of_ne hne, Option.map_eq_some_iff] at h
      obtain ⟨m, hm, rfl⟩ := h
      obtain ⟨hbs, hline⟩ := ih hm
      refine ⟨?_, ?_⟩
      · rw [List.take_succ_cons, List.cons_append, List.cons.injEq]
        exact ⟨rfl, hbs⟩
      · rw [List.take_succ_cons, findCrlf_cons_of_ne, hline]
        · rfl
        · intro tail heq
          refine hne (tail ++ bs.drop m) ?_
          rw [← List.cons_append, ← List.cons_append, ← heq, List.cons_append,
            List.take_append_drop]

/-- What is found ends a line. -/
theorem exists_line_of_findCrlf {bs : Bytes} {n : Nat} (h : findCrlf bs = some n) :
    ∃ line rest, bs = line ++ [0x0D, 0x0A] ++ rest ∧ line.length = n ∧ findCrlf line = none := by
  obtain ⟨hbs, hline⟩ := findCrlf_eq_some h
  have hlength := congrArg List.length hbs
  simp only [List.length_append, List.length_take, List.length_cons, List.length_drop] at hlength
  refine ⟨bs.take n, bs.drop (n + 2), ?_, ?_, hline⟩
  · rw [List.append_assoc]
    exact hbs
  · rw [List.length_take]
    omega

theorem findCrlf_append_of_some {bs : Bytes} {n : Nat} (h : findCrlf bs = some n) (more : Bytes) :
    findCrlf (bs ++ more) = some n := by
  obtain ⟨line, rest, rfl, rfl, hline⟩ := exists_line_of_findCrlf h
  rw [List.append_assoc, List.append_assoc]
  exact findCrlf_append hline (rest ++ more)

/-- A line does not end earlier because something stands in front of it. -/
theorem findCrlf_append_line {blanks line : Bytes} (hblanks : findCrlf blanks = none)
    (hline : findCrlf line = none) (hhead : line.head? ≠ some 0x0A) :
    findCrlf (blanks ++ line) = none := by
  induction blanks with
  | nil => exact hline
  | cons b bs ih =>
    have hne : ∀ tail, b :: bs ≠ 0x0D :: 0x0A :: tail := by
      rintro tail heq
      rw [heq] at hblanks
      cases hblanks
    rw [findCrlf_cons_of_ne hne, Option.map_eq_none_iff] at hblanks
    rw [List.cons_append, findCrlf_cons_of_ne, ih hblanks]
    · rfl
    · intro tail heq
      obtain ⟨hb, htail⟩ := List.cons.inj heq
      cases bs with
      | nil => exact hhead (congrArg List.head? htail)
      | cons c bs => exact hne bs (by rw [hb, (List.cons.inj htail).1])

/-- Blanks in front of a word are skipped. -/
theorem nextWord_append_of_isSpace {blanks : Bytes} (h : ∀ b ∈ blanks, isSpace b = true)
    (s : Bytes) : nextWord (blanks ++ s) = nextWord s := by
  unfold nextWord
  rw [List.dropWhile_append_of_pos h]

/-- A string that begins with a word. -/
theorem nextWord_of_ne_nil {s : Bytes} (h : (s.takeWhile fun b => !isSpace b) ≠ []) :
    nextWord s = (s.takeWhile fun b => !isSpace b, s.dropWhile fun b => !isSpace b) := by
  cases s with
  | nil => exact absurd rfl h
  | cons b bs =>
    cases hspace : isSpace b with
    | true => exact absurd (List.takeWhile_cons_of_neg (by simp [hspace])) h
    | false =>
      unfold nextWord
      rw [List.dropWhile_cons_of_neg (by simp [hspace])]

/-- A string with a word in it, in front of a blank: what comes behind does not matter. -/
theorem nextWord_append_of_word {s : Bytes} (hword : ∃ b ∈ s, isSpace b = false) {blank : UInt8}
    (hblank : isSpace blank = true) (rest : Bytes) :
    nextWord (s ++ blank :: rest) = ((nextWord s).1, (nextWord s).2 ++ blank :: rest) := by
  have hne : ¬ (s.dropWhile isSpace).isEmpty = true := by
    obtain ⟨b, hb, hspace⟩ := hword
    rw [List.isEmpty_iff, List.dropWhile_eq_nil_iff]
    exact fun hall => Bool.false_ne_true (hspace.symm.trans (hall b hb))
  have htake : (blank :: rest).takeWhile (fun b => !isSpace b) = [] :=
    List.takeWhile_cons_of_neg (by simp [hblank])
  have hdrop : (blank :: rest).dropWhile (fun b => !isSpace b) = blank :: rest :=
    List.dropWhile_cons_of_neg (by simp [hblank])
  unfold nextWord
  rw [List.dropWhile_append, if_neg hne]
  refine Prod.ext ?_ ?_
  · dsimp only
    rw [List.takeWhile_append, htake]
    split
    next hall =>
      rw [List.append_nil]
      exact ((List.takeWhile_prefix _).eq_of_length hall).symm
    next => rfl
  · dsimp only
    rw [List.dropWhile_append, hdrop]
    split
    next hall =>
      rw [List.isEmpty_iff.mp hall]
      rfl
    next => rfl

theorem nextWord_split (s : Bytes) :
    s = s.takeWhile isSpace ++ ((nextWord s).1 ++ (nextWord s).2) := by
  unfold nextWord
  rw [List.takeWhile_append_dropWhile, List.takeWhile_append_dropWhile]

theorem length_nextWord_add_le (s : Bytes) :
    (nextWord s).1.length + (nextWord s).2.length ≤ s.length := by
  have hlength := congrArg List.length (nextWord_split s)
  rw [List.length_append, List.length_append] at hlength
  omega

theorem mem_of_mem_nextWord {s : Bytes} {b : UInt8} (h : b ∈ (nextWord s).1) : b ∈ s := by
  rw [nextWord_split s]
  exact List.mem_append_right _ (List.mem_append_left _ h)

/-- Lines with their ends. -/
def joinLines (lines : List Bytes) : Bytes := (lines.map (· ++ [0x0D, 0x0A])).flatten

@[simp] theorem joinLines_nil : joinLines [] = [] := rfl

@[simp] theorem joinLines_cons (line : Bytes) (lines : List Bytes) :
    joinLines (line :: lines) = line ++ [0x0D, 0x0A] ++ joinLines lines := rfl

@[simp] theorem joinLines_append (lines more : List Bytes) :
    joinLines (lines ++ more) = joinLines lines ++ joinLines more := by
  rw [joinLines, List.map_append, List.flatten_append]
  rfl

theorem add_two_le_of_findCrlf {bs : Bytes} {n : Nat} (h : findCrlf bs = some n) :
    n + 2 ≤ bs.length := by
  obtain ⟨line, rest, rfl, rfl, -⟩ := exists_line_of_findCrlf h
  rw [List.length_append, List.length_append]
  exact Nat.le_add_right _ _

end EchoNet.Lib
