import EchoNet.Lib.Refill
import Mathlib.Algebra.Order.Ring.Rat
import Mathlib.Logic.Function.Basic
import Mathlib.Tactic.Ring

/-!
# The Token Bucket

`TokenBucket` of src/src/RateLimit/TokenBucket.cpp, with its arithmetic over exact rationals
and the time in seconds.  The keys stay abstract: the code only compares them.

What a bucket does from now on depends on its level only: `TokenBucket.level` is what
`tryAcquire` would find.
-/

namespace EchoNet.RateLimit

open EchoNet.Lib

/-! ## §1 Buckets -/

/-- `TokenBucket::Bucket`. -/
structure Bucket where
  tokens : ℚ
  lastRefill : ℚ
  deriving DecidableEq, Repr

/-- `class TokenBucket`. -/
structure TokenBucket (κ : Type*) where
  rate : ℚ
  capacity : ℚ
  buckets : κ → Option Bucket

namespace TokenBucket

variable {κ : Type*}

/-- The constructor: no bucket yet. -/
def new (rate capacity : ℚ) : TokenBucket κ := ⟨rate, capacity, fun _ => none⟩

/-- `refill`. -/
def refill (t : TokenBucket κ) (now : ℚ) (b : Bucket) : Bucket :=
  ⟨min t.capacity (b.tokens + (now - b.lastRefill) * t.rate), now⟩

/-- The bucket that `tryAcquire` finds or makes, refilled. -/
def current (t : TokenBucket κ) (now : ℚ) (key : κ) : Bucket :=
  t.refill now ((t.buckets key).getD ⟨t.capacity, now⟩)

/-- The answer of `tryAcquire`. -/
def admits (t : TokenBucket κ) (now : ℚ) (key : κ) : Bool := 1 ≤ (t.current now key).tokens

/-! ## §2 Levels -/

/-- The tokens that `tryAcquire` finds under a key. -/
def level (t : TokenBucket κ) (now : ℚ) (key : κ) : ℚ := (t.current now key).tokens

theorem admits_iff {t : TokenBucket κ} {now : ℚ} {key : κ} :
    t.admits now key = true ↔ 1 ≤ t.level now key := by
  simp [admits, level]

theorem level_of_none {t : TokenBucket κ} {key : κ} (h : t.buckets key = none) (now : ℚ) :
    t.level now key = t.capacity := by
  simp [level, current, refill, h]

theorem level_of_some {t : TokenBucket κ} {key : κ} {b : Bucket} (h : t.buckets key = some b)
    (now : ℚ) :
    t.level now key = fill t.capacity b.tokens ((now - b.lastRefill) * t.rate) := by
  simp [level, current, refill, fill, h]

theorem level_le_capacity (t : TokenBucket κ) (now : ℚ) (key : κ) :
    t.level now key ≤ t.capacity := min_le_left _ _

theorem level_new (rate capacity now : ℚ) (key : κ) :
    (new rate capacity : TokenBucket κ).level now key = capacity := level_of_none rfl now

/-- A level only depends on an earlier one. -/
theorem level_later {t : TokenBucket κ} (hrate : 0 ≤ t.rate) {now now' : ℚ} (h : now ≤ now')
    (key : κ) :
    t.level now' key = fill t.capacity (t.level now key) ((now' - now) * t.rate) := by
  have hgrowth : 0 ≤ (now' - now) * t.rate := mul_nonneg (sub_nonneg.mpr h) hrate
  cases hb : t.buckets key with
  | none =>
    rw [level_of_none hb, level_of_none hb, fill_eq_cap (le_add_of_nonneg_right hgrowth)]
  | some b =>
    rw [level_of_some hb, level_of_some hb, fill_fill _ _ _ hgrowth]
    congr 1
    ring

theorem level_le_later {t : TokenBucket κ} (hrate : 0 ≤ t.rate) {now now' : ℚ} (h : now ≤ now')
    (key : κ) : t.level now key ≤ t.level now' key := by
  rw [level_later hrate h]
  exact le_fill (t.level_le_capacity now key) (le_refl _)
    (mul_nonneg (sub_nonneg.mpr h) hrate)

theorem level_later_le {t : TokenBucket κ} (hrate : 0 ≤ t.rate) {now now' : ℚ} (h : now ≤ now')
    (key : κ) : t.level now' key ≤ t.level now key + (now' - now) * t.rate := by
  rw [level_later hrate h]
  exact min_le_right _ _

theorem level_congr {t u : TokenBucket κ} {key : κ} (hrate : u.rate = t.rate)
    (hcapacity : u.capacity = t.capacity) (hbuckets : u.buckets key = t.buckets key) (now : ℚ) :
    u.level now key = t.level now key := by
  unfold level current refill
  rw [hrate, hcapacity, hbuckets]

/-! ## §3 Calls -/

variable [DecidableEq κ]

/-- `tryAcquire`. -/
def tryAcquire (t : TokenBucket κ) (now : ℚ) (key : κ) : TokenBucket κ × Bool :=
  let b := t.current now key
  if t.admits now key then
    ({ t with buckets := Function.update t.buckets key (some { b with tokens := b.tokens - 1 }) }, true)
  else ({ t with buckets := Function.update t.buckets key (some b) }, false)

/-- `removeKey`. -/
def removeKey (t : TokenBucket κ) (key : κ) : TokenBucket κ :=
  { t with buckets := Function.update t.buckets key none }

@[simp] theorem tryAcquire_snd (t : TokenBucket κ) (now : ℚ) (key : κ) :
    (t.tryAcquire now key).2 = t.admits now key := by
  unfold tryAcquire
  split_ifs with h <;> simp [h]

/-- `tryAcquire` touches the bucket of its own key. -/
theorem tryAcquire_buckets_of_ne (t : TokenBucket κ) (now : ℚ) {key key' : κ} (h : key' ≠ key) :
    (t.tryAcquire now key).1.buckets key' = t.buckets key' := by
  unfold tryAcquire
  dsimp only
  split_ifs
  · exact Function.update_of_ne h _ _
  · exact Function.update_of_ne h _ _

@[simp] theorem tryAcquire_rate (t : TokenBucket κ) (now : ℚ) (key : κ) :
    (t.tryAcquire now key).1.rate = t.rate := by
  unfold tryAcquire
  dsimp only
  split_ifs <;> rfl

@[simp] theorem tryAcquire_capacity (t : TokenBucket κ) (now : ℚ) (key : κ) :
    (t.tryAcquire now key).1.capacity = t.capacity := by
  unfold tryAcquire
  dsimp only
  split_ifs <;> rfl

/-- A call takes a token if it finds one. -/
theorem tryAcquire_buckets (t : TokenBucket κ) (now : ℚ) (key : κ) :
    (t.tryAcquire now key).1.buckets key =
      some ⟨t.level now key - (if t.admits now key then 1 else 0), now⟩ := by
  unfold tryAcquire
  dsimp only
  split_ifs with h
  · exact Function.update_self ..
  · rw [sub_zero]
    exact Function.update_self ..

theorem level_tryAcquire (t : TokenBucket κ) (now now' : ℚ) (key : κ) :
    (t.tryAcquire now key).1.level now' key =
      fill t.capacity (t.level now key - (if t.admits now key then 1 else 0))
        ((now' - now) * t.rate) := by
  rw [level_of_some (t.tryAcquire_buckets now key), tryAcquire_capacity, tryAcquire_rate]

/-- What a call leaves. -/
theorem level_tryAcquire_self (t : TokenBucket κ) (now : ℚ) (key : κ) :
    (t.tryAcquire now key).1.level now key =
      t.level now key - (if t.admits now key then 1 else 0) := by
  rw [level_tryAcquire, sub_self, zero_mul, fill, add_zero]
  refine min_eq_right ((sub_le_self _ ?_).trans (t.level_le_capacity now key))
  split_ifs
  · exact zero_le_one
  · exact le_refl 0

theorem level_tryAcquire_of_ne (t : TokenBucket κ) (now now' : ℚ) {key key' : κ}
    (h : key' ≠ key) : (t.tryAcquire now key).1.level now' key' = t.level now' key' :=
  level_congr (t.tryAcquire_rate now key) (t.tryAcquire_capacity now key)
    (t.tryAcquire_buckets_of_ne now h) now'

@[simp] theorem level_removeKey (t : TokenBucket κ) (now : ℚ) (key : κ) :
    (t.removeKey key).level now key = t.capacity :=
  level_of_none (Function.update_self ..) now

theorem level_removeKey_of_ne (t : TokenBucket κ) (now : ℚ) {key key' : κ} (h : key' ≠ key) :
    (t.removeKey key).level now key' = t.level now key' :=
  level_congr (t := t) (u := t.removeKey key) rfl rfl (Function.update_of_ne h _ _) now

/-- A call never leaves less than nothing. -/
theorem le_level_tryAcquire {t : TokenBucket κ} {now : ℚ} {y : ℚ} (hy : y ≤ 0) (key : κ)
    (h : ∀ key', y ≤ t.level now key') (key' : κ) :
    y ≤ (t.tryAcquire now key).1.level now key' := by
  by_cases hkey : key' = key
  · subst hkey
    rw [level_tryAcquire_self]
    split_ifs with hadmits
    · exact hy.trans (sub_nonneg.mpr (admits_iff.mp hadmits))
    · rw [sub_zero]
      exact h key'
  · rw [level_tryAcquire_of_ne t now now hkey]
    exact h key'

end TokenBucket

end EchoNet.RateLimit
