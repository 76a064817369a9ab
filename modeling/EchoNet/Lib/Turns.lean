import Mathlib.Data.List.Count
import Mathlib.Data.List.Rotate

/-!
# Turns

The entries of a list take turns in their order, and begin again after the last one.  However many
turns there are, no entry gets two more of them than another.
-/

namespace EchoNet.Lib

variable {α : Type*}

/-- The first `k` turns. -/
def turns : Nat → List α → List α
  | 0, _ => []
  | _ + 1, [] => []
  | k + 1, x :: xs => x :: turns k (xs ++ [x])

theorem turns_zero (l : List α) : turns 0 l = [] := by
  cases l <;> rfl

theorem turns_nil (k : Nat) : turns k ([] : List α) = [] := by
  cases k <;> rfl

/-- After its turn an entry is the last one. -/
theorem turns_succ (k : Nat) (x : α) (xs : List α) :
    turns (k + 1) (x :: xs) = x :: turns k (xs ++ [x]) := rfl

/-- The turns go round the list. -/
theorem getElem?_turns {k i : Nat} (l : List α) (h : i < k) :
    (turns k l)[i]? = l[i % l.length]? := by
  induction k generalizing l i with
  | zero => exact absurd h (Nat.not_lt_zero i)
  | succ k ih =>
    cases l with
    | nil => simp [turns_nil]
    | cons x xs =>
      rw [turns_succ]
      cases i with
      | zero => simp
      | succ i =>
        rw [List.getElem?_cons_succ, ih (xs ++ [x]) (Nat.lt_of_succ_lt_succ h)]
        have hrotate : xs ++ [x] = (x :: xs).rotate 1 := by simp
        rw [hrotate, List.length_rotate, List.getElem?_rotate (Nat.mod_lt i (by simp)),
          Nat.mod_add_mod]

theorem length_turns (k : Nat) {l : List α} (h : l ≠ []) : (turns k l).length = k := by
  induction k generalizing l with
  | zero => rw [turns_zero, List.length_nil]
  | succ k ih =>
    obtain ⟨x, xs, rfl⟩ := List.exists_cons_of_ne_nil h
    rw [turns_succ, List.length_cons, ih (by simp)]

theorem mem_of_mem_turns {k : Nat} {l : List α} {x : α} (h : x ∈ turns k l) : x ∈ l := by
  obtain ⟨i, hi, rfl⟩ := List.mem_iff_getElem.mp h
  by_cases hl : l = []
  · subst hl
    simp [turns_nil] at hi
  · have hget := getElem?_turns l (length_turns k hl ▸ hi)
    rw [List.getElem?_eq_getElem hi] at hget
    exact List.mem_of_getElem? hget.symm

theorem sublist_pair_or {l : List α} {a b : α} (ha : a ∈ l) (hb : b ∈ l) (hne : a ≠ b) :
    [a, b].Sublist l ∨ [b, a].Sublist l := by
  induction l with
  | nil => exact absurd ha List.not_mem_nil
  | cons x xs ih =>
    rcases List.mem_cons.mp ha with rfl | ha'
    · have hb' := (List.mem_cons.mp hb).resolve_left hne.symm
      exact Or.inl ((List.singleton_sublist.mpr hb').cons_cons a)
    · rcases List.mem_cons.mp hb with rfl | hb'
      · exact Or.inr ((List.singleton_sublist.mpr ha').cons_cons b)
      · exact (ih ha' hb').imp (List.Sublist.cons x) (List.Sublist.cons x)

variable [DecidableEq α]

/-- Of two entries the first is never behind, and at most one turn ahead. -/
theorem count_turns_of_sublist {k : Nat} {l : List α} (hl : l.Nodup) {a b : α}
    (h : [a, b].Sublist l) :
    (turns k l).count b ≤ (turns k l).count a ∧
      (turns k l).count a ≤ (turns k l).count b + 1 := by
  induction k generalizing l a b with
  | zero => simp [turns_zero]
  | succ k ih =>
    cases l with
    | nil => simp [turns_nil]
    | cons x xs =>
      have hrotate : (xs ++ [x]).Nodup := by simpa using (List.nodup_rotate (n := 1)).mpr hl
      rw [turns_succ]
      rcases List.cons_sublist_cons'.mp h with hrest | ⟨rfl, hb⟩
      · have hnext := ih hrotate (hrest.trans (List.sublist_append_left xs [x]))
        have hne : ∀ y ∈ [a, b], x ≠ y := fun y hy hxy =>
          (List.nodup_cons.mp hl).1 (hxy ▸ hrest.subset hy)
        rw [List.count_cons_of_ne (hne a (by simp)), List.count_cons_of_ne (hne b (by simp))]
        exact hnext
      · -- `a` takes its turn, and `b` is the first of the two from then on
        have hnext := ih hrotate (hb.append (List.Sublist.refl [a]))
        have hne : a ≠ b := fun hab =>
          (List.nodup_cons.mp hl).1 (hab ▸ List.singleton_sublist.mp hb)
        rw [List.count_cons_self, List.count_cons_of_ne hne]
        omega

/-- No entry gets two turns more than another. -/
theorem count_turns_le (k : Nat) {l : List α} (hl : l.Nodup) {a b : α} (ha : a ∈ l)
    (hb : b ∈ l) : (turns k l).count a ≤ (turns k l).count b + 1 := by
  by_cases hne : a = b
  · rw [hne]
    exact Nat.le_succ _
  · rcases sublist_pair_or ha hb hne with h | h
    · exact (count_turns_of_sublist hl h).2
    · exact (count_turns_of_sublist hl h).1.trans (Nat.le_succ _)

end EchoNet.Lib
