import Mathlib.Data.List.Perm.Basic

/-!
# Ledgers

Items enter a system, pass through it and leave it, and a log says what happened to them.  The
system is a list of live items, each with the events that its place stands for.

- `Ledger` says that every item is live in one place at most, with the events of its place in the
  log, and that the events of an item that has left are as they should be;
- `enter`, `advance` and `leave` keep it, whatever the order of the list.
-/

namespace EchoNet.Lib

variable {ι κ : Type*} [DecidableEq ι]

/-! ## §1 The log -/

/-- What the log says about an item. -/
def eventsOf (log : List (ι × κ)) (x : ι) : List κ :=
  log.filterMap fun e => if e.1 = x then some e.2 else none

@[simp] theorem eventsOf_append_self (log : List (ι × κ)) (x : ι) (e : κ) :
    eventsOf (log ++ [(x, e)]) x = eventsOf log x ++ [e] := by
  simp [eventsOf]

theorem eventsOf_append_of_ne {x y : ι} (h : x ≠ y) (log : List (ι × κ)) (e : κ) :
    eventsOf (log ++ [(x, e)]) y = eventsOf log y := by
  simp [eventsOf, h]

theorem mem_eventsOf {log : List (ι × κ)} {x : ι} {e : κ} :
    e ∈ eventsOf log x ↔ (x, e) ∈ log := by
  simp [eventsOf]

/-! ## §2 Ledgers -/

/-- The items that have entered, the live ones among them, and the log. -/
structure Ledger (Done : ι → List κ → Prop) (entered : List ι) (live : List (ι × List κ))
    (log : List (ι × κ)) : Prop where
  nodup : (live.map Prod.fst).Nodup
  live_entered : ∀ p ∈ live, p.1 ∈ entered
  events : ∀ p ∈ live, eventsOf log p.1 = p.2
  done : ∀ x ∈ entered, x ∉ live.map Prod.fst → Done x (eventsOf log x)
  fresh : ∀ x, x ∉ entered → eventsOf log x = []

namespace Ledger

variable {Done : ι → List κ → Prop} {entered : List ι} {live live' rest : List (ι × List κ)}
  {log : List (ι × κ)} {x : ι} {es : List κ}

theorem empty : Ledger Done [] [] ([] : List (ι × κ)) where
  nodup := List.nodup_nil
  live_entered := nofun
  events := nofun
  done := nofun
  fresh := fun _ _ => rfl

/-- The order of the places does not matter. -/
theorem perm (h : Ledger Done entered live log) (hperm : live'.Perm live) :
    Ledger Done entered live' log where
  nodup := ((hperm.map Prod.fst).nodup_iff).mpr h.nodup
  live_entered := fun p hp => h.live_entered p (hperm.subset hp)
  events := fun p hp => h.events p (hperm.subset hp)
  done := fun x hx hlive =>
    h.done x hx fun hmem => hlive (((hperm.map Prod.fst).mem_iff).mpr hmem)
  fresh := h.fresh

/-- A new item. -/
theorem enter (h : Ledger Done entered live log) (hx : x ∉ entered)
    (hlive : live'.Perm ((x, []) :: live)) : Ledger Done (entered ++ [x]) live' log := by
  refine perm ?_ hlive
  have hnotlive : x ∉ live.map Prod.fst := by
    intro hmem
    obtain ⟨p, hp, rfl⟩ := List.mem_map.mp hmem
    exact hx (h.live_entered p hp)
  refine ⟨?_, ?_, ?_, ?_, ?_⟩
  · rw [List.map_cons, List.nodup_cons]
    exact ⟨hnotlive, h.nodup⟩
  · intro p hp
    rcases List.mem_cons.mp hp with rfl | hp
    · exact List.mem_append_right _ (List.mem_singleton_self x)
    · exact List.mem_append_left _ (h.live_entered p hp)
  · intro p hp
    rcases List.mem_cons.mp hp with rfl | hp
    · exact h.fresh x hx
    · exact h.events p hp
  · intro y hy hgone
    rw [List.map_cons, List.mem_cons, not_or] at hgone
    rcases List.mem_append.mp hy with hy | hy
    · exact h.done y hy hgone.2
    · exact absurd (List.mem_singleton.mp hy) hgone.1
  · intro y hy
    exact h.fresh y fun hmem => hy (List.mem_append_left _ hmem)

/-- Something happens to a live item, which goes to another place. -/
theorem advance {e : κ} (h : Ledger Done entered live log) (hlive : live.Perm ((x, es) :: rest))
    (hlive' : live'.Perm ((x, es ++ [e]) :: rest)) :
    Ledger Done entered live' (log ++ [(x, e)]) := by
  refine perm ?_ hlive'
  have hcons := h.perm hlive.symm
  have hnodup := hcons.nodup
  rw [List.map_cons, List.nodup_cons] at hnodup
  have hx : x ∈ entered := hcons.live_entered _ List.mem_cons_self
  -- nothing else has the item's number
  have hother : ∀ p ∈ rest, x ≠ p.1 := by
    rintro p hp rfl
    exact hnodup.1 (List.mem_map.mpr ⟨p, hp, rfl⟩)
  refine ⟨?_, ?_, ?_, ?_, ?_⟩
  · rw [List.map_cons, List.nodup_cons]
    exact hnodup
  · intro p hp
    rcases List.mem_cons.mp hp with rfl | hp
    · exact hx
    · exact hcons.live_entered p (List.mem_cons_of_mem _ hp)
  · intro p hp
    rcases List.mem_cons.mp hp with rfl | hp
    · rw [eventsOf_append_self, hcons.events _ List.mem_cons_self]
    · rw [eventsOf_append_of_ne (hother p hp)]
      exact hcons.events p (List.mem_cons_of_mem _ hp)
  · intro y hy hgone
    have hne : x ≠ y := by
      rintro rfl
      exact hgone List.mem_cons_self
    rw [eventsOf_append_of_ne hne]
    exact hcons.done y hy hgone
  · intro y hy
    have hne : x ≠ y := by
      rintro rfl
      exact hy hx
    rw [eventsOf_append_of_ne hne]
    exact h.fresh y hy

/-- An item leaves, with the events that it has. -/
theorem leave (h : Ledger Done entered live log) (hlive : live.Perm ((x, es) :: rest))
    (hlive' : live'.Perm rest) (hdone : Done x es) : Ledger Done entered live' log := by
  refine perm ?_ hlive'
  have hcons := h.perm hlive.symm
  have hnodup := hcons.nodup
  rw [List.map_cons, List.nodup_cons] at hnodup
  refine ⟨hnodup.2, fun p hp => hcons.live_entered p (List.mem_cons_of_mem _ hp),
    fun p hp => hcons.events p (List.mem_cons_of_mem _ hp), ?_, h.fresh⟩
  intro y hy hgone
  by_cases heq : y = x
  · subst heq
    rw [hcons.events _ List.mem_cons_self]
    exact hdone
  · refine hcons.done y hy ?_
    rw [List.map_cons, List.mem_cons, not_or]
    exact ⟨heq, hgone⟩

end Ledger

end EchoNet.Lib
