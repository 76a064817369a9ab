import Mathlib.Data.List.Basic
import Mathlib.Order.Defs.PartialOrder

/-!
# Executable Labelled Machines

A machine is a partial step function `step : σ → α → Option σ`: the label `a : α`
carries every choice the environment makes (which thread moves, what the kernel
returns), and `none` means that the label is not enabled.  Everything that runs
"for every interleaving" is then a statement about every list of labels.

This file has the induction rules the rest of the development uses:
- an invariant of every step is an invariant of every run (`run_invariant`);
- an invariant of every step that meets a side condition is an invariant of every
  run all of whose steps meet it (`run_invariant_of_meets`);
- a property that steps keep exactly when they meet a condition holds along, or after,
  exactly the runs that meet it (`meets_iff_forall_state_of_meets`, `last_iff_meets_of_bounded`);
- an invariant that spends a budget on some of the labels holds as long as the budget
  lasts (`run_invariant_countP`);
- an invariant that time carries on holds at the steps of every run whose labels have
  non-decreasing times (`Meets.timed`).
-/

namespace EchoNet.Lib

variable {σ α : Type*}

/-! ## §1 Runs -/

/-- The state after a list of labels, or `none` when one of them is not enabled. -/
def run (step : σ → α → Option σ) : σ → List α → Option σ
  | s, [] => some s
  | s, a :: as => (step s a).bind fun t => run step t as

@[simp] theorem run_nil (step : σ → α → Option σ) (s : σ) : run step s [] = some s := rfl

theorem run_cons (step : σ → α → Option σ) (s : σ) (a : α) (as : List α) :
    run step s (a :: as) = (step s a).bind fun t => run step t as := rfl

/-- A run of `a :: as` is a step followed by a run of `as`. -/
theorem run_cons_eq_some {step : σ → α → Option σ} {s t : σ} {a : α} {as : List α} :
    run step s (a :: as) = some t ↔ ∃ u, step s a = some u ∧ run step u as = some t := by
  rw [run_cons, Option.bind_eq_some_iff]

/-- Runs compose. -/
theorem run_append {step : σ → α → Option σ} {s t : σ} {as bs : List α} :
    run step s (as ++ bs) = some t ↔ ∃ u, run step s as = some u ∧ run step u bs = some t := by
  induction as generalizing s with
  | nil => simp
  | cons a as ih =>
    simp only [List.cons_append, run_cons_eq_some, ih]
    constructor
    · rintro ⟨v, hv, u, hu, ht⟩
      exact ⟨u, ⟨v, hv, hu⟩, ht⟩
    · rintro ⟨u, ⟨v, hv, hu⟩, ht⟩
      exact ⟨v, hv, u, hu, ht⟩

/-- A run can be evaluated: a test of its last state gives the state. -/
theorem exists_of_run_any {step : σ → α → Option σ} {s : σ} {as : List α} {p : σ → Bool}
    (h : (run step s as).any p = true) : ∃ t, run step s as = some t ∧ p t = true := by
  cases hr : run step s as with
  | none => simp [hr] at h
  | some t => exact ⟨t, rfl, by simpa [hr] using h⟩

/-! ## §2 Invariants of runs -/

/-- What every step preserves, every run preserves. -/
theorem run_invariant {step : σ → α → Option σ} {P : σ → Prop}
    (hstep : ∀ s a t, P s → step s a = some t → P t)
    {s t : σ} {as : List α} (hs : P s) (hrun : run step s as = some t) : P t := by
  induction as generalizing s with
  | nil =>
    cases hrun
    exact hs
  | cons a as ih =>
    obtain ⟨u, hu, ht⟩ := run_cons_eq_some.mp hrun
    exact ih (hstep s a u hs hu) ht

/-- An invariant indexed by the number of labels of a kind, of which at most `N` are
allowed: the step may use that the budget is not spent. -/
theorem run_invariant_countP {step : σ → α → Option σ} {P : Nat → σ → Prop} {p : α → Bool}
    {N : Nat}
    (hstep : ∀ n s a t, P n s → (p a = true → n < N) → step s a = some t →
      P (n + if p a then 1 else 0) t)
    {n : Nat} {s t : σ} {as : List α} (hs : P n s) (hcount : n + as.countP p ≤ N)
    (hrun : run step s as = some t) : P (n + as.countP p) t := by
  induction as generalizing n s with
  | nil =>
    cases hrun
    exact hs
  | cons a as ih =>
    obtain ⟨u, hu, ht⟩ := run_cons_eq_some.mp hrun
    rw [List.countP_cons] at hcount ⊢
    have hbudget : p a = true → n < N := fun ha => by
      rw [if_pos ha] at hcount
      omega
    have hP := ih (hstep n s a u hs hbudget hu) (by omega) ht
    rwa [Nat.add_assoc, Nat.add_comm (ite ..)] at hP

/-- Every step of the run from `s` along `as` meets `G`, judged in the state before
the step. -/
def Meets (step : σ → α → Option σ) (G : σ → α → Prop) : σ → List α → Prop
  | _, [] => True
  | s, a :: as => G s a ∧ ∀ t, step s a = some t → Meets step G t as

instance Meets.decidable {step : σ → α → Option σ} {G : σ → α → Prop}
    [∀ s a, Decidable (G s a)] : (s : σ) → (as : List α) → Decidable (Meets step G s as)
  | _, [] => isTrue trivial
  | s, a :: as =>
    match h : step s a with
    | none => decidable_of_iff (G s a) ⟨fun hG => ⟨hG, by simp [h]⟩, And.left⟩
    | some t =>
      have : Decidable (Meets step G t as) := Meets.decidable t as
      decidable_of_iff (G s a ∧ Meets step G t as)
        ⟨fun ⟨hG, ht⟩ => ⟨hG, by simpa [h] using ht⟩, fun ⟨hG, ht⟩ => ⟨hG, ht t h⟩⟩

/-- What every step that meets `G` preserves, every run that meets `G` preserves. -/
theorem run_invariant_of_meets {step : σ → α → Option σ} {G : σ → α → Prop} {P : σ → Prop}
    (hstep : ∀ s a t, P s → G s a → step s a = some t → P t)
    {s t : σ} {as : List α} (hs : P s) (hmeets : Meets step G s as)
    (hrun : run step s as = some t) : P t := by
  induction as generalizing s with
  | nil =>
    cases hrun
    exact hs
  | cons a as ih =>
    obtain ⟨u, hu, ht⟩ := run_cons_eq_some.mp hrun
    obtain ⟨hG, hrest⟩ := hmeets
    exact ih (hstep s a u hs hG hu) (hrest u hu) ht

/-- A condition that holds of the labels in every state holds along every run. -/
theorem meets_of_forall {step : σ → α → Option σ} {G : σ → α → Prop} {as : List α}
    (h : ∀ a ∈ as, ∀ s, G s a) (s : σ) : Meets step G s as := by
  induction as generalizing s with
  | nil => trivial
  | cons a as ih =>
    refine ⟨h a (List.mem_cons_self ..) s, fun t _ => ?_⟩
    exact ih (fun b hb => h b (List.mem_cons_of_mem _ hb)) t

theorem Meets.and {step : σ → α → Option σ} {G H : σ → α → Prop} {s : σ} {as : List α}
    (hG : Meets step G s as) (hH : Meets step H s as) :
    Meets step (fun s a => G s a ∧ H s a) s as := by
  induction as generalizing s with
  | nil => trivial
  | cons a as ih => exact ⟨⟨hG.1, hH.1⟩, fun t ht => ih (hG.2 t ht) (hH.2 t ht)⟩

theorem meets_append {step : σ → α → Option σ} {G : σ → α → Prop} {s t : σ} {as : List α}
    (hrun : run step s as = some t) (bs : List α) :
    Meets step G s (as ++ bs) ↔ Meets step G s as ∧ Meets step G t bs := by
  induction as generalizing s with
  | nil =>
    cases hrun
    exact (and_iff_right trivial).symm
  | cons a as ih =>
    obtain ⟨u, hu, ht⟩ := run_cons_eq_some.mp hrun
    have hrest : ∀ cs, (∀ u', step s a = some u' → Meets step G u' cs) ↔ Meets step G u cs :=
      fun cs => ⟨fun h => h u hu, fun h u' hu' => Option.some.inj (hu.symm.trans hu') ▸ h⟩
    rw [List.cons_append, Meets, Meets, hrest, hrest, ih ht, and_assoc]

/-- A run that meets `G` meets every `H` that follows from `G` under an invariant of the steps
that meet `H`. -/
theorem Meets.imp {step : σ → α → Option σ} {G H : σ → α → Prop} {I : σ → Prop}
    (himp : ∀ s a, I s → G s a → H s a) (hI : ∀ s a t, I s → H s a → step s a = some t → I t)
    {s : σ} {as : List α} (hs : I s) (h : Meets step G s as) : Meets step H s as := by
  induction as generalizing s with
  | nil => trivial
  | cons a as ih =>
    obtain ⟨hG, hrest⟩ := h
    have hH := himp s a hs hG
    exact ⟨hH, fun t ht => ih (hI s a t hs hH ht) (hrest t ht)⟩

/-- A condition holds along a run exactly when it holds at each of its steps. -/
theorem meets_iff_forall_step {step : σ → α → Option σ} {G : σ → α → Prop} {s t : σ}
    {as : List α} (hrun : run step s as = some t) :
    Meets step G s as ↔
      ∀ pre a post, as = pre ++ a :: post → ∀ v, run step s pre = some v → G v a := by
  induction as generalizing s with
  | nil => simp [Meets]
  | cons b bs ih =>
    obtain ⟨u, hu, ht⟩ := run_cons_eq_some.mp hrun
    constructor
    · rintro ⟨hG, hrest⟩ pre a post heq v hv
      cases pre with
      | nil =>
        cases heq
        cases hv
        exact hG
      | cons c pre =>
        cases heq
        obtain ⟨u', hu', hv⟩ := run_cons_eq_some.mp hv
        rw [hu, Option.some.injEq] at hu'
        subst hu'
        exact (ih ht).mp (hrest u hu) pre a post rfl v hv
    · intro h
      refine ⟨h [] b bs rfl s rfl, fun u' hu' => ?_⟩
      rw [hu, Option.some.injEq] at hu'
      subst hu'
      refine (ih ht).mpr fun pre a post heq v hv => ?_
      exact h (b :: pre) a post (by simp [heq]) v (run_cons_eq_some.mpr ⟨u, hu, hv⟩)

/-- If a property holds after a step exactly when it held before and the step meets `G`, then it
holds after a run exactly when it held before and the run meets `G`.  The steps are those between
states with the invariant `I` within a bound `B` that no step comes back to. -/
theorem last_iff_meets_of_bounded {step : σ → α → Option σ} {G : σ → α → Prop} {B I P : σ → Prop}
    (hB : ∀ s a t, step s a = some t → B t → B s)
    (hI : ∀ s a t, I s → step s a = some t → I t)
    (hstep : ∀ s a t, I s → B t → step s a = some t → (P t ↔ P s ∧ G s a))
    {s t : σ} {as : List α} (hs : I s) (hrun : run step s as = some t) (ht : B t) :
    (P t ↔ P s ∧ Meets step G s as) ∧ B s := by
  induction as generalizing s with
  | nil =>
    cases hrun
    exact ⟨(and_iff_left trivial).symm, ht⟩
  | cons a as ih =>
    obtain ⟨u, hu, hut⟩ := run_cons_eq_some.mp hrun
    obtain ⟨hiff, hBu⟩ := ih (hI s a u hs hu) hut
    have hrest : Meets step G u as ↔ ∀ u', step s a = some u' → Meets step G u' as :=
      ⟨fun h u' hu' => Option.some.inj (hu.symm.trans hu') ▸ h, fun h => h u hu⟩
    refine ⟨?_, hB s a u hu hBu⟩
    rw [hiff, hstep s a u hs hBu hu, and_assoc, hrest]
    rfl

/-- If, in states with the invariant `I`, a property holds after a step exactly when it held
before and the step meets `G`, then it holds after a run exactly when it held before and the
run meets `G`. -/
theorem last_iff_meets {step : σ → α → Option σ} {G : σ → α → Prop} {I P : σ → Prop}
    (hI : ∀ s a t, I s → step s a = some t → I t)
    (hstep : ∀ s a t, I s → step s a = some t → (P t ↔ P s ∧ G s a))
    {s t : σ} {as : List α} (hs : I s) (hrun : run step s as = some t) :
    P t ↔ P s ∧ Meets step G s as :=
  (last_iff_meets_of_bounded (B := fun _ => True) (fun _ _ _ _ _ => trivial) hI
    (fun s a t hi _ h => hstep s a t hi h) hs hrun trivial).1

/-- The same for runs all of whose steps meet `H`: only they need to keep the invariant and to
relate the property to `G`. -/
theorem last_iff_meets_of_meets {step : σ → α → Option σ} {G H : σ → α → Prop} {I P : σ → Prop}
    (hI : ∀ s a t, I s → H s a → step s a = some t → I t)
    (hstep : ∀ s a t, I s → H s a → step s a = some t → (P t ↔ P s ∧ G s a))
    {s t : σ} {as : List α} (hs : I s) (hH : Meets step H s as) (hrun : run step s as = some t) :
    P t ↔ P s ∧ Meets step G s as := by
  induction as generalizing s with
  | nil =>
    cases hrun
    exact (and_iff_left trivial).symm
  | cons a as ih =>
    obtain ⟨u, hu, hut⟩ := run_cons_eq_some.mp hrun
    obtain ⟨hHs, hHrest⟩ := hH
    have hrest : Meets step G u as ↔ ∀ u', step s a = some u' → Meets step G u' as :=
      ⟨fun h u' hu' => Option.some.inj (hu.symm.trans hu') ▸ h, fun h => h u hu⟩
    rw [ih (hI s a u hs hHs hu) (hHrest u hu) hut, hstep s a u hs hHs hu, and_assoc, hrest]
    rfl

/-- If, in states with the invariant `I` and the property `P`, a step keeps `P` exactly when
it meets `G`, then `P` holds in every state of a run exactly when the run meets `G`.  The steps
are those that meet `H`, and only they need to keep `I`. -/
theorem meets_iff_forall_state_of_meets {step : σ → α → Option σ} {G H : σ → α → Prop}
    {I P : σ → Prop} (hI : ∀ s a t, I s → H s a → step s a = some t → I t)
    (hstep : ∀ s a t, I s → H s a → P s → step s a = some t → (P t ↔ G s a))
    {s t : σ} {as : List α} (hs : I s) (hP : P s) (hH : Meets step H s as)
    (hrun : run step s as = some t) :
    Meets step G s as ↔ ∀ pre post v, as = pre ++ post → run step s pre = some v → P v := by
  induction as generalizing s with
  | nil =>
    refine ⟨fun _ pre post v heq hv => ?_, fun _ => trivial⟩
    obtain ⟨rfl, -⟩ := List.append_eq_nil_iff.mp heq.symm
    cases hv
    exact hP
  | cons a as ih =>
    obtain ⟨u, hu, ht⟩ := run_cons_eq_some.mp hrun
    obtain ⟨hHs, hHrest⟩ := hH
    have hIu := hI s a u hs hHs hu
    constructor
    · rintro ⟨hG, hrest⟩ pre post v heq hv
      cases pre with
      | nil =>
        cases hv
        exact hP
      | cons b pre =>
        cases heq
        obtain ⟨u', hu', hv⟩ := run_cons_eq_some.mp hv
        obtain rfl : u = u' := Option.some.inj (hu.symm.trans hu')
        have hPu := (hstep s a u hs hHs hP hu).mpr hG
        exact (ih hIu hPu (hHrest u hu) ht).mp (hrest u hu) pre post v rfl hv
    · intro h
      have hPu : P u := h [a] as u rfl (run_cons_eq_some.mpr ⟨u, hu, rfl⟩)
      refine ⟨(hstep s a u hs hHs hP hu).mp hPu, fun u' hu' => ?_⟩
      obtain rfl : u = u' := Option.some.inj (hu.symm.trans hu')
      refine (ih hIu hPu (hHrest u hu) ht).mpr fun pre post v heq hv => ?_
      exact h (a :: pre) post v (by rw [heq]; rfl) (run_cons_eq_some.mpr ⟨u, hu, hv⟩)

/-- The same for steps that keep the invariant without a condition. -/
theorem meets_iff_forall_state {step : σ → α → Option σ} {G : σ → α → Prop} {I P : σ → Prop}
    (hI : ∀ s a t, I s → step s a = some t → I t)
    (hstep : ∀ s a t, I s → P s → step s a = some t → (P t ↔ G s a))
    {s t : σ} {as : List α} (hs : I s) (hP : P s) (hrun : run step s as = some t) :
    Meets step G s as ↔ ∀ pre post v, as = pre ++ post → run step s pre = some v → P v :=
  meets_iff_forall_state_of_meets (H := fun _ _ => True) (fun s a t h _ => hI s a t h)
    (fun s a t h _ => hstep s a t h) hs hP (meets_of_forall (fun _ _ _ => trivial) s) hrun

/-! ## §3 Timed runs -/

section Timed

variable {T : Type*} [Preorder T] {time : α → T} {P : T → σ → Prop}

/-- Along a run at non-decreasing times, an invariant that only time and the steps that meet `G`
carry on gives every condition that it implies at the steps. -/
theorem Meets.timed {step : σ → α → Option σ} {G H : σ → α → Prop}
    (hlater : ∀ s τ τ', P τ s → τ ≤ τ' → P τ' s)
    (himp : ∀ s a, P (time a) s → G s a → H s a)
    (hstep : ∀ s a t, P (time a) s → G s a → step s a = some t → P (time a) t)
    {s : σ} {as : List α} (hs : ∀ a ∈ as.head?, P (time a) s)
    (htimes : (as.map time).Pairwise (· ≤ ·)) (hmeets : Meets step G s as) : Meets step H s as := by
  induction as generalizing s with
  | nil => trivial
  | cons a as ih =>
    rw [List.map_cons, List.pairwise_cons] at htimes
    have ha := hs a rfl
    obtain ⟨hG, hrest⟩ := hmeets
    refine ⟨himp s a ha hG, fun t ht => ih (fun b hb => ?_) htimes.2 (hrest t ht)⟩
    exact hlater t _ _ (hstep s a t ha hG ht)
      (htimes.1 _ (List.mem_map_of_mem (List.mem_of_mem_head? hb)))

end Timed

end EchoNet.Lib
