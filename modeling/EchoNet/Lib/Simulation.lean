import EchoNet.Lib.Machine

/-!
# Forward Simulation

A machine is simulated by a more abstract one when each of its steps is a run of the abstract
machine, possibly an empty one, between related states.  What is proved of all runs of the
abstract machine then holds, through the relation, of the runs of the concrete one.

- `Simulates`: the obligation, one step at a time, for the steps that meet a condition;
- `Simulates.run`: what it gives for the runs whose steps meet it;
- `SimulatesBy`, `SimulatesBy.run`: the same when it is said what each step is in the abstract
  machine, for all states along the run;
- `meets_of_bounded_last`: a bound that no step comes back to is such a condition, along every run
  that ends within it.
-/

namespace EchoNet.Lib

variable {σ α ρ β : Type*} {step : σ → α → Option σ} {astep : ρ → β → Option ρ}
  {G : σ → α → Prop} {R : σ → ρ → Prop}

/-- Between states related by `R`, a step that meets `G` is a run of the abstract machine. -/
def Simulates (step : σ → α → Option σ) (astep : ρ → β → Option ρ) (G : σ → α → Prop)
    (R : σ → ρ → Prop) : Prop :=
  ∀ s r a t, R s r → G s a → step s a = some t → ∃ bs u, run astep r bs = some u ∧ R t u

/-- A step that the abstract machine does not see. -/
theorem exists_run_of_stutter {r : ρ} {t : σ} (h : R t r) :
    ∃ bs u, run astep r bs = some u ∧ R t u :=
  ⟨[], r, rfl, h⟩

/-- A step that is one step of the abstract machine. -/
theorem exists_run_of_step {r u : ρ} {b : β} {t : σ} (hstep : astep r b = some u) (h : R t u) :
    ∃ bs u, run astep r bs = some u ∧ R t u :=
  ⟨[b], u, run_cons_eq_some.mpr ⟨u, hstep, rfl⟩, h⟩

/-- Between states related by `R`, a step that meets `G` is a run of the abstract machine that `L`
allows for it. -/
def SimulatesBy (step : σ → α → Option σ) (astep : ρ → β → Option ρ)
    (L : σ → ρ → α → List β → Prop) (G : σ → α → Prop) (R : σ → ρ → Prop) : Prop :=
  ∀ s r a t, R s r → G s a → step s a = some t →
    ∃ bs u, L s r a bs ∧ run astep r bs = some u ∧ R t u

/-- The abstract machine goes along with a run, by a run that `L` allows for each of its steps, and
all states that they reach together are related by `R`. -/
inductive Accompanies (step : σ → α → Option σ) (astep : ρ → β → Option ρ)
    (L : σ → ρ → α → List β → Prop) (R : σ → ρ → Prop) : σ → ρ → List α → σ → ρ → Prop
  | nil {s : σ} {r : ρ} : R s r → Accompanies step astep L R s r [] s r
  | cons {s t v : σ} {r u q : ρ} {a : α} {as : List α} {bs : List β} : R s r →
      step s a = some t → L s r a bs → run astep r bs = some u →
      Accompanies step astep L R t u as v q → Accompanies step astep L R s r (a :: as) v q

/-- The abstract machine goes along with every run that meets the condition. -/
theorem SimulatesBy.run {L : σ → ρ → α → List β → Prop} (hsim : SimulatesBy step astep L G R)
    {s t : σ} {r : ρ} {as : List α} (hR : R s r) (hmeets : Meets step G s as)
    (hrun : Lib.run step s as = some t) : ∃ u, Accompanies step astep L R s r as t u := by
  induction as generalizing s r with
  | nil =>
    cases hrun
    exact ⟨r, .nil hR⟩
  | cons a as ih =>
    obtain ⟨hG, hrest⟩ := hmeets
    obtain ⟨v, hv, ht⟩ := run_cons_eq_some.mp hrun
    obtain ⟨bs, q, hL, hbs, hq⟩ := hsim s r a v hR hG hv
    obtain ⟨u, hu⟩ := ih hq (hrest v hv) ht
    exact ⟨u, .cons hR hv hL hbs hu⟩

/-- What goes along is a run. -/
theorem Accompanies.exists_run {L : σ → ρ → α → List β → Prop} {s t : σ} {r u : ρ} {as : List α}
    (h : Accompanies step astep L R s r as t u) : ∃ bs, run astep r bs = some u ∧ R t u := by
  induction h with
  | nil hR => exact ⟨[], rfl, hR⟩
  | @cons _ _ _ _ _ _ _ _ bs _ _ _ hbs _ ih =>
    obtain ⟨cs, hcs, hR⟩ := ih
    exact ⟨bs ++ cs, run_append.mpr ⟨_, hbs, hcs⟩, hR⟩

/-- A run that meets the condition is a run of the abstract machine. -/
theorem Simulates.run (hsim : Simulates step astep G R) {s t : σ} {r : ρ} {as : List α}
    (hR : R s r) (hmeets : Meets step G s as) (hrun : Lib.run step s as = some t) :
    ∃ bs u, Lib.run astep r bs = some u ∧ R t u := by
  -- any run of the abstract machine will do
  have hby : SimulatesBy step astep (fun _ _ _ _ => True) G R := by
    intro s r a t hR hG hstep
    obtain ⟨bs, u, hbs, hu⟩ := hsim s r a t hR hG hstep
    exact ⟨bs, u, trivial, hbs, hu⟩
  obtain ⟨u, hu⟩ := hby.run hR hmeets hrun
  obtain ⟨bs, hbs, hRu⟩ := hu.exists_run
  exact ⟨bs, u, hbs, hRu⟩

/-- If a run ends within a bound that no step comes back to, all of its steps do. -/
theorem meets_of_bounded_last {B : σ → Prop} (hB : ∀ s a t, step s a = some t → B t → B s)
    {s t : σ} {as : List α} (hrun : run step s as = some t) (ht : B t) :
    Meets step (fun s a => ∀ u, step s a = some u → B u) s as ∧ B s := by
  induction as generalizing s with
  | nil =>
    cases hrun
    exact ⟨trivial, ht⟩
  | cons a as ih =>
    obtain ⟨v, hv, hvt⟩ := run_cons_eq_some.mp hrun
    obtain ⟨hrest, hBv⟩ := ih hvt
    refine ⟨⟨fun u hu => ?_, fun u hu => ?_⟩, hB s a v hv hBv⟩
    · rw [hv, Option.some.injEq] at hu
      exact hu ▸ hBv
    · rw [hv, Option.some.injEq] at hu
      exact hu ▸ hrest

end EchoNet.Lib
