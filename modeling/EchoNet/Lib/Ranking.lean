import EchoNet.Lib.Machine

/-!
# Machines That Come to Rest

A rank that every step of a kind lowers bounds the runs of such steps, and if only the states of
a goal are without such a step, then every run of them that cannot go on has reached the goal.
-/

namespace EchoNet.Lib

variable {σ α : Type*} {step : σ → α → Option σ} {p : α → Bool} {rank : σ → Nat}

/-- The steps of the kind lower the rank. -/
def Lowers (step : σ → α → Option σ) (p : α → Bool) (rank : σ → Nat) : Prop :=
  ∀ s a t, p a = true → step s a = some t → rank t < rank s

/-- A run of such steps spends the rank. -/
theorem Lowers.length_add_rank_le (h : Lowers step p rank) {s t : σ} {as : List α}
    (hp : ∀ a ∈ as, p a = true) (hrun : run step s as = some t) : as.length + rank t ≤ rank s := by
  induction as generalizing s with
  | nil =>
    cases hrun
    exact Nat.le_of_eq (Nat.zero_add _)
  | cons a as ih =>
    obtain ⟨u, hu, ht⟩ := run_cons_eq_some.mp hrun
    have hlt := h s a u (hp a List.mem_cons_self) hu
    have hle := ih (fun b hb => hp b (List.mem_cons_of_mem _ hb)) ht
    rw [List.length_cons]
    omega

/-- There is a run of such steps that cannot go on. -/
theorem Lowers.exists_rest (h : Lowers step p rank) (s : σ) :
    ∃ as t, (∀ a ∈ as, p a = true) ∧ run step s as = some t ∧
      ∀ a, p a = true → step t a = none := by
  induction hn : rank s using Nat.strongRecOn generalizing s with
  | ind n ih =>
    by_cases hrest : ∀ a, p a = true → step s a = none
    · exact ⟨[], s, nofun, rfl, hrest⟩
    · obtain ⟨a, hstep⟩ := not_forall.mp hrest
      obtain ⟨ha, hstep⟩ := Classical.not_imp.mp hstep
      obtain ⟨u, hu⟩ := Option.ne_none_iff_exists'.mp hstep
      obtain ⟨as, t, has, hrun, hend⟩ := ih (rank u) (hn ▸ h s a u ha hu) u rfl
      refine ⟨a :: as, t, fun b hb => ?_, run_cons_eq_some.mpr ⟨u, hu, hrun⟩, hend⟩
      rcases List.mem_cons.mp hb with rfl | hb
      · exact ha
      · exact has b hb

end EchoNet.Lib
