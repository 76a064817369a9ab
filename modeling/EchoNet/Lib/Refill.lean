import Mathlib.Algebra.Order.Group.MinMax
import Mathlib.Algebra.Order.Group.Unbundled.Basic

/-!
# Saturating Levels

A level that is filled up to a capacity, over an ordered group.  Filling twice is filling once with
the sum, so that a level does not remember when it was looked at.
-/

namespace EchoNet.Lib

variable {K : Type*} [AddCommGroup K] [LinearOrder K] [IsOrderedAddMonoid K]

/-- A level, filled by an amount. -/
def fill (cap level amount : K) : K := min cap (level + amount)

variable {cap x y d e : K}

omit [IsOrderedAddMonoid K] in
theorem fill_eq_cap (h : cap ≤ x + d) : fill cap x d = cap := min_eq_left h

/-- Filling composes. -/
theorem fill_fill (cap x d : K) (he : 0 ≤ e) : fill cap (fill cap x d) e = fill cap x (d + e) := by
  unfold fill
  rw [min_add, ← min_assoc, min_eq_left (le_add_of_nonneg_right he), add_assoc]

theorem fill_mono_level (h : x ≤ y) (cap d : K) : fill cap x d ≤ fill cap y d :=
  min_le_min_left cap (add_le_add_left h d)

theorem le_fill (hcap : y ≤ cap) (hx : y ≤ x) (hd : 0 ≤ d) : y ≤ fill cap x d :=
  le_min hcap (hx.trans (le_add_of_nonneg_right hd))

end EchoNet.Lib
