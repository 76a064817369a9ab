import EchoNet.Lib.Machine

/-!
# Two Machines on a Wire

An endpoint is a machine that sends a stream and takes one in.  Two of them on a wire read what the
other one has sent: in order, at any later time, in any pieces.

The proof rule is assume and guarantee.  A contract of an endpoint is an invariant of its state and
of the stream that has come in, which may assume something of that stream and guarantees something of
the one that goes out.  Two endpoints whose assumptions are each other's guarantees keep both.

## Main result

- `Duplex.run_contract`: the rule, for whole runs.
-/

namespace EchoNet.Lib

variable {σ ρ α γ β : Type*}

/-! ## §1 Endpoints -/

/-- A machine with a stream out, to which it only appends, and a stream in, to which only the other
side does. -/
structure Endpoint (σ α β : Type*) where
  step : σ → α → Option σ
  sent : σ → List β
  deliver : σ → List β → σ
  sent_prefix : ∀ {s a t}, step s a = some t → sent s <+: sent t
  sent_deliver : ∀ s bs, sent (deliver s bs) = sent s

/-- The invariant `I` of a state and the stream that has come in.  The steps that meet `C` keep it
as long as that stream satisfies `A`, and it says `B` of the stream that has gone out. -/
structure Contract (E : Endpoint σ α β) (C : σ → α → Prop) (A B : List β → Prop)
    (I : σ → List β → Prop) : Prop where
  step : ∀ {s a t received}, I s received → A received → C s a → E.step s a = some t →
    I t received
  deliver : ∀ {s received more}, I s received → A (received ++ more) →
    I (E.deliver s more) (received ++ more)
  guarantee : ∀ {s received}, I s received → B (E.sent s)

/-! ## §2 The wire -/

/-- The two ends. -/
structure Duplex (σ ρ : Type*) where
  left : σ
  right : ρ

namespace Duplex

inductive Act (α γ : Type*) where
  | left (a : α)
  | right (c : γ)

/-- One end makes a step, and what it sends is on its way to the other one. -/
def step (E : Endpoint σ α β) (F : Endpoint ρ γ β) (d : Duplex σ ρ) :
    Act α γ → Option (Duplex σ ρ)
  | .left a => (E.step d.left a).map fun s =>
    ⟨s, F.deliver d.right ((E.sent s).drop (E.sent d.left).length)⟩
  | .right c => (F.step d.right c).map fun t =>
    ⟨E.deliver d.left ((F.sent t).drop (F.sent d.right).length), t⟩

/-- Conditions on the steps of the two ends. -/
def Both (C : σ → α → Prop) (D : ρ → γ → Prop) (d : Duplex σ ρ) : Act α γ → Prop
  | .left a => C d.left a
  | .right c => D d.right c

instance (C : σ → α → Prop) (D : ρ → γ → Prop) [∀ s a, Decidable (C s a)]
    [∀ s a, Decidable (D s a)] (d : Duplex σ ρ) : (a : Act α γ) → Decidable (Both C D d a)
  | .left a => inferInstanceAs (Decidable (C d.left a))
  | .right c => inferInstanceAs (Decidable (D d.right c))

/-- Both invariants, each of what the other end has sent. -/
structure Kept (E : Endpoint σ α β) (F : Endpoint ρ γ β) (I : σ → List β → Prop)
    (J : ρ → List β → Prop) (d : Duplex σ ρ) : Prop where
  left : I d.left (F.sent d.right)
  right : J d.right (E.sent d.left)

variable {E : Endpoint σ α β} {F : Endpoint ρ γ β} {C : σ → α → Prop} {D : ρ → γ → Prop}
  {A B : List β → Prop} {I : σ → List β → Prop} {J : ρ → List β → Prop}

theorem Kept.step (hE : Contract E C A B I) (hF : Contract F D B A J) {d d' : Duplex σ ρ}
    {a : Act α γ} (h : Kept E F I J d) (hcond : Both C D d a) (hstep : step E F d a = some d') :
    Kept E F I J d' := by
  cases a with
  | left a =>
    obtain ⟨s, hs, rfl⟩ := Option.map_eq_some_iff.mp hstep
    obtain ⟨more, hmore⟩ := E.sent_prefix hs
    have hI : I s (F.sent d.right) := hE.step h.left (hF.guarantee h.right) hcond hs
    have hnew : (E.sent s).drop (E.sent d.left).length = more := by
      rw [← hmore, List.drop_left]
    -- the other end assumes what this one guarantees after the step
    have hB : B (E.sent d.left ++ more) := by
      rw [hmore]
      exact hE.guarantee hI
    refine ⟨?_, ?_⟩
    · rw [F.sent_deliver]
      exact hI
    · rw [hnew, ← hmore]
      exact hF.deliver h.right hB
  | right c =>
    obtain ⟨t, ht, rfl⟩ := Option.map_eq_some_iff.mp hstep
    obtain ⟨more, hmore⟩ := F.sent_prefix ht
    have hJ : J t (E.sent d.left) := hF.step h.right (hE.guarantee h.left) hcond ht
    have hnew : (F.sent t).drop (F.sent d.right).length = more := by
      rw [← hmore, List.drop_left]
    have hA : A (F.sent d.right ++ more) := by
      rw [hmore]
      exact hF.guarantee hJ
    refine ⟨?_, ?_⟩
    · rw [hnew, ← hmore]
      exact hE.deliver h.left hA
    · rw [E.sent_deliver]
      exact hJ

/-- **Assume and guarantee**: what each contract says under the assumption that the other one
guarantees holds after every run whose steps meet the conditions. -/
theorem run_contract (hE : Contract E C A B I) (hF : Contract F D B A J) {d d' : Duplex σ ρ}
    {acts : List (Act α γ)} (h : Kept E F I J d)
    (hmeets : Meets (Duplex.step E F) (Both C D) d acts)
    (hrun : run (Duplex.step E F) d acts = some d') : Kept E F I J d' := by
  apply run_invariant_of_meets _ h hmeets hrun
  intro d a d' h hcond hstep
  exact h.step hE hF hcond hstep

end Duplex

end EchoNet.Lib
