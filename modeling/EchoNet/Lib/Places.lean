import Mathlib.Algebra.GroupWithZero.Nat
import Mathlib.Data.List.Perm.Basic
import Mathlib.Tactic.SplitIfs

/-!
# Places in a List

A list of processes, one of which takes a step: up to order the list is that process and the
others, before the step and after it.
-/

namespace EchoNet.Lib

variable {α β : Type*} {l : List α} {i : Nat} {a : α}

theorem perm_cons_eraseIdx (h : l[i]? = some a) : l.Perm (a :: l.eraseIdx i) := by
  obtain ⟨hi, rfl⟩ := List.getElem?_eq_some_iff.mp h
  exact (List.getElem_cons_eraseIdx_perm hi).symm

theorem set_perm_cons_eraseIdx (h : l[i]? = some a) (b : α) :
    (l.set i b).Perm (b :: l.eraseIdx i) :=
  List.set_perm_cons_eraseIdx (List.getElem?_eq_some_iff.mp h).1 b

/-- What `f` gives for one process, and what it gives for the others. -/
theorem flatMap_perm_of_getElem? (h : l[i]? = some a) (f : α → List β) :
    (l.flatMap f).Perm (f a ++ (l.eraseIdx i).flatMap f) :=
  (perm_cons_eraseIdx h).flatMap_right f

theorem flatMap_set_perm (h : l[i]? = some a) (f : α → List β) (b : α) :
    ((l.set i b).flatMap f).Perm (f b ++ (l.eraseIdx i).flatMap f) :=
  (set_perm_cons_eraseIdx h b).flatMap_right f

theorem countP_eraseIdx_add (h : l[i]? = some a) (p : α → Bool) :
    (l.eraseIdx i).countP p + (p a).toNat = l.countP p := by
  have hall := (perm_cons_eraseIdx h).countP_eq p
  rw [List.countP_cons] at hall
  cases hp : p a <;> simp [hp] at hall ⊢ <;> omega

theorem countP_set_add (h : l[i]? = some a) (p : α → Bool) (b : α) :
    (l.set i b).countP p + (p a).toNat = l.countP p + (p b).toNat := by
  have hset := (set_perm_cons_eraseIdx h b).countP_eq p
  rw [List.countP_cons] at hset
  rw [← countP_eraseIdx_add h p]
  cases hp : p b <;> simp [hp] at hset ⊢ <;> omega

theorem countP_set_of_eq {p : α → Bool} {b : α} (h : l[i]? = some a) (hp : p b = p a) :
    (l.set i b).countP p = l.countP p := by
  have hset := countP_set_add h p b
  rw [hp] at hset
  exact Nat.add_right_cancel hset

theorem sum_map_set_add (h : l[i]? = some a) (f : α → Nat) (b : α) :
    ((l.set i b).map f).sum + f a = (l.map f).sum + f b := by
  have hall := ((perm_cons_eraseIdx h).map f).sum_nat
  have hset := ((set_perm_cons_eraseIdx h b).map f).sum_nat
  rw [List.map_cons, List.sum_cons] at hall hset
  omega

theorem modify_eq_set_of_getElem? (h : l[i]? = some a) (f : α → α) :
    l.modify i f = l.set i (f a) := by
  obtain ⟨hi, rfl⟩ := List.getElem?_eq_some_iff.mp h
  refine List.ext_getElem? fun k => ?_
  rw [List.getElem?_modify, List.getElem?_set]
  split_ifs with hk
  · subst hk
    simp [List.getElem?_eq_getElem hi]
  · simp

/-- What the change of a process does not touch. -/
theorem map_modify_of_eq {f : α → α} {g : α → β} (hf : ∀ x, g (f x) = g x) (l : List α) (i : Nat) :
    (l.modify i f).map g = l.map g := by
  induction l generalizing i with
  | nil => simp
  | cons x l ih =>
    cases i with
    | zero => simp [hf]
    | succ i => simp [ih]

end EchoNet.Lib
