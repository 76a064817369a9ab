import EchoNet.Lib.Machine
import Mathlib.Data.Set.Insert
import Mathlib.Logic.Function.Basic
import Mathlib.Tactic.SplitIfs

/-!
# Lobbies

People who come and go, rooms that they build, enter and leave, and what they say, which is heard
by whoever is in the same room, and by nobody else.  Who knows whom and in which order a word goes
round is not part of the picture.

- `Lobby.step`: what can happen;
- `step_say` and the like: when it does;
- `shutBehind`: what happens to the room of somebody who goes.
-/

namespace EchoNet.Lib

/-- What somebody heard: who said it, where, and what. -/
structure Heard (κ ν ι τ : Type*) where
  listener : κ
  speaker : ν
  room : ι
  text : τ

/-- Who is at a door, where he is, which rooms there are, and what has been heard. -/
structure Lobby (κ ν ι τ : Type*) where
  person : κ → Option ν
  place : κ → Option ι
  rooms : Set ι
  heard : List (Heard κ ν ι τ)

namespace Lobby

variable {κ ν ι τ : Type*}

def empty : Lobby κ ν ι τ := ⟨fun _ => none, fun _ => none, ∅, []⟩

inductive Act (κ ν ι τ : Type*) where
  /-- somebody comes, also in the place of somebody who is in no room -/
  | arrive (c : κ) (name : ν)
  | depart (c : κ)
  /-- a room is built by somebody who is in none, and is in it -/
  | build (c : κ) (r : ι)
  | enter (c : κ) (r : ι)
  | leave (c : κ)
  /-- an empty room is gone -/
  | shut (r : ι)
  /-- everybody in the room of `c` hears it, in some order -/
  | say (c : κ) (text : τ) (listeners : List κ)

open Classical in
/-- The last one to leave a room shuts it. -/
noncomputable def shutBehind (l : Lobby κ ν ι τ) (c : κ) : List (Act κ ν ι τ) :=
  match l.place c with
  | some r => if ∀ d, l.place d = some r → d = c then [.shut r] else []
  | none => []

section

variable {l : Lobby κ ν ι τ} {c : κ} {r : ι}

theorem shutBehind_of_nowhere (h : l.place c = none) : l.shutBehind c = [] := by
  rw [shutBehind, h]

theorem shutBehind_of_last (h : l.place c = some r) (hlast : ∀ d, l.place d = some r → d = c) :
    l.shutBehind c = [.shut r] := by
  rw [shutBehind, h]
  exact if_pos hlast

theorem shutBehind_of_not_last (h : l.place c = some r)
    (hlast : ¬ ∀ d, l.place d = some r → d = c) : l.shutBehind c = [] := by
  rw [shutBehind, h]
  exact if_neg hlast

end

variable [DecidableEq κ]

/-- `c` is now at `r`, or nowhere. -/
def move (l : Lobby κ ν ι τ) (c : κ) (r : Option ι) : Lobby κ ν ι τ :=
  { l with place := Function.update l.place c r }

open Classical in
noncomputable def step (l : Lobby κ ν ι τ) : Act κ ν ι τ → Option (Lobby κ ν ι τ)
  | .arrive c name =>
    if l.place c = none then some { l with person := Function.update l.person c (some name) }
    else none
  | .depart c => some { l.move c none with person := Function.update l.person c none }
  | .build c r =>
    if l.person c ≠ none ∧ l.place c = none ∧ r ∉ l.rooms then
      some { l.move c (some r) with rooms := insert r l.rooms }
    else none
  | .enter c r => if l.person c ≠ none ∧ r ∈ l.rooms then some (l.move c (some r)) else none
  | .leave c => some (l.move c none)
  | .shut r =>
    if ∀ c, l.place c ≠ some r then some { l with rooms := l.rooms \ {r} } else none
  | .say c text listeners =>
    match l.person c, l.place c with
    | some name, some r =>
      if listeners.Nodup ∧ ∀ d, d ∈ listeners ↔ l.place d = some r then
        some { l with heard := l.heard ++ listeners.map fun d => ⟨d, name, r, text⟩ }
      else none
    | _, _ => none

section

variable {l : Lobby κ ν ι τ} {c d : κ} {r : ι} {o : Option ι} {name : ν} {text : τ}

@[simp] theorem move_person : (l.move c o).person = l.person := rfl

@[simp] theorem move_rooms : (l.move c o).rooms = l.rooms := rfl

@[simp] theorem move_heard : (l.move c o).heard = l.heard := rfl

theorem move_place : (l.move c o).place d = if d = c then o else l.place d :=
  Function.update_apply ..

theorem step_arrive (h : l.place c = none) :
    l.step (.arrive c name) =
      some { l with person := Function.update l.person c (some name) } := if_pos h

theorem step_build (hc : l.person c ≠ none) (hplace : l.place c = none) (hr : r ∉ l.rooms) :
    l.step (.build c r) = some { l.move c (some r) with rooms := insert r l.rooms } :=
  if_pos ⟨hc, hplace, hr⟩

theorem step_enter (hc : l.person c ≠ none) (hr : r ∈ l.rooms) :
    l.step (.enter c r) = some (l.move c (some r)) := if_pos ⟨hc, hr⟩

theorem step_shut (h : ∀ c, l.place c ≠ some r) :
    l.step (.shut r) = some { l with rooms := l.rooms \ {r} } := if_pos h

theorem step_say {listeners : List κ} (hc : l.person c = some name) (hr : l.place c = some r)
    (hnodup : listeners.Nodup) (hall : ∀ d, d ∈ listeners ↔ l.place d = some r) :
    l.step (.say c text listeners) =
      some { l with heard := l.heard ++ listeners.map fun d => ⟨d, name, r, text⟩ } := by
  simp only [step, hc, hr]
  exact if_pos ⟨hnodup, hall⟩

end

end Lobby

end EchoNet.Lib
