import Mathlib.Data.List.Basic

/-!
# Framed Streams

A framer looks at the front of a list of bytes and finds a frame, finds that more is needed, or
finds that no frame can begin like this.  What it has found does not change when more arrives:
these laws are fields of `Framer`, and they are all that is needed for a stream to give the same
frames however it is cut.

## Main results

- `drain_append`: draining goes on from what is left over;
- `feedAll_eq_drain`: feeding chunks one by one is draining the whole stream.
-/

namespace EchoNet.Lib

/-! ## §1 Framers -/

/-- What a framer says of the bytes in front of it. -/
inductive Front (β μ : Type*) where
  | frame (msg : μ) (rest : List β)
  | incomplete
  | invalid

/-- A framer whose findings are final. -/
structure Framer (β μ : Type*) where
  front : List β → Front β μ
  front_nil : front [] = .incomplete
  shorter : ∀ {bs rest msg}, front bs = .frame msg rest → rest.length < bs.length
  frame_append : ∀ {bs rest msg}, front bs = .frame msg rest →
    ∀ more, front (bs ++ more) = .frame msg (rest ++ more)
  invalid_append : ∀ {bs}, front bs = .invalid → ∀ more, front (bs ++ more) = .invalid

/-- Where a stream stands after its complete frames: at some bytes of the next one, or at a
front that no frame has. -/
inductive Residue (β : Type*) where
  | waiting (bs : List β)
  | broken

namespace Framer

variable {β μ : Type*} (f : Framer β μ)

/-- The frames at the front of `bs`, and what is left behind them. -/
def drain (bs : List β) : List μ × Residue β :=
  match h : f.front bs with
  | .frame msg rest =>
    have := f.shorter h
    (msg :: (drain rest).1, (drain rest).2)
  | .incomplete => ([], .waiting bs)
  | .invalid => ([], .broken)
termination_by bs.length

theorem drain_frame {bs rest : List β} {msg : μ} (h : f.front bs = .frame msg rest) :
    f.drain bs = (msg :: (f.drain rest).1, (f.drain rest).2) := by
  rw [drain]
  split
  next msg' rest' h' =>
    rw [h, Front.frame.injEq] at h'
    rw [h'.1, h'.2]
  next h' => rw [h] at h'; cases h'
  next h' => rw [h] at h'; cases h'

theorem drain_incomplete {bs : List β} (h : f.front bs = .incomplete) :
    f.drain bs = ([], .waiting bs) := by
  rw [drain]
  split
  next h' => rw [h] at h'; cases h'
  next => rfl
  next h' => rw [h] at h'; cases h'

theorem drain_invalid {bs : List β} (h : f.front bs = .invalid) : f.drain bs = ([], .broken) := by
  rw [drain]
  split
  next h' => rw [h] at h'; cases h'
  next h' => rw [h] at h'; cases h'
  next => rfl

/-- The induction that follows `drain`: one case for each finding. -/
theorem drain_induction {P : List β → Prop}
    (frame : ∀ bs msg rest, f.front bs = .frame msg rest → P rest → P bs)
    (incomplete : ∀ bs, f.front bs = .incomplete → P bs)
    (invalid : ∀ bs, f.front bs = .invalid → P bs) (bs : List β) : P bs := by
  induction hn : bs.length using Nat.strongRecOn generalizing bs with
  | ind n ih =>
    subst hn
    cases hfront : f.front bs with
    | frame msg rest => exact frame bs msg rest hfront (ih rest.length (f.shorter hfront) rest rfl)
    | incomplete => exact incomplete bs hfront
    | invalid => exact invalid bs hfront

/-! ## §2 Feeding -/

/-- Some more bytes: nothing comes after a broken front. -/
def feed : Residue β → List β → List μ × Residue β
  | .waiting bs, chunk => f.drain (bs ++ chunk)
  | .broken, _ => ([], .broken)

/-- Chunks of bytes, one by one. -/
def feedAll : Residue β → List (List β) → List μ × Residue β
  | r, [] => ([], r)
  | r, chunk :: chunks =>
    let (msgs, next) := f.feed r chunk
    let (more, last) := feedAll next chunks
    (msgs ++ more, last)

/-- Draining a concatenation goes on from what is left over. -/
theorem drain_append (bs more : List β) :
    f.drain (bs ++ more) =
      ((f.drain bs).1 ++ (f.feed (f.drain bs).2 more).1, (f.feed (f.drain bs).2 more).2) := by
  induction bs using f.drain_induction with
  -- the frame is found with or without the bytes behind it
  | frame bs msg rest hfront ih =>
    rw [f.drain_frame (f.frame_append hfront more), f.drain_frame hfront, ih]
    rfl
  | incomplete bs hfront =>
    rw [f.drain_incomplete hfront]
    rfl
  | invalid bs hfront =>
    rw [f.drain_invalid hfront, f.drain_invalid (f.invalid_append hfront more)]
    rfl

/-- What is left over has no complete frame in front. -/
theorem front_of_drain {bs rest : List β} (h : (f.drain bs).2 = .waiting rest) :
    f.front rest = .incomplete := by
  induction bs using f.drain_induction with
  | frame bs msg tail hfront ih =>
    rw [f.drain_frame hfront] at h
    exact ih h
  | incomplete bs hfront =>
    rw [f.drain_incomplete hfront] at h
    cases h
    exact hfront
  | invalid bs hfront =>
    rw [f.drain_invalid hfront] at h
    cases h

/-- Feeding two chunks is feeding their concatenation. -/
theorem feed_append (r : Residue β) (chunk more : List β) :
    f.feed r (chunk ++ more) =
      ((f.feed r chunk).1 ++ (f.feed (f.feed r chunk).2 more).1,
        (f.feed (f.feed r chunk).2 more).2) := by
  cases r with
  | waiting bs =>
    show f.drain (bs ++ (chunk ++ more)) = _
    rw [← List.append_assoc]
    exact f.drain_append (bs ++ chunk) more
  | broken => rfl

/-- Feeding chunks one by one is feeding their concatenation, as long as no frame has been left
in front. -/
theorem feedAll_eq_feed {r : Residue β} (hr : f.feed r [] = ([], r)) (chunks : List (List β)) :
    f.feedAll r chunks = f.feed r chunks.flatten := by
  induction chunks generalizing r with
  | nil => exact hr.symm
  | cons chunk chunks ih =>
    have hnext : f.feed (f.feed r chunk).2 [] = ([], (f.feed r chunk).2) := by
      -- the residue of a chunk has no frame in front of it either
      cases hres : (f.feed r chunk).2 with
      | waiting rest =>
        have hfront : f.front rest = .incomplete := by
          cases r with
          | waiting bs => exact f.front_of_drain hres
          | broken => cases hres
        show f.drain (rest ++ []) = _
        rw [List.append_nil, f.drain_incomplete hfront]
      | broken => rfl
    rw [List.flatten_cons, feed_append, ← ih hnext]
    rfl

/-- However a stream is cut, feeding the chunks is draining the stream. -/
theorem feedAll_eq_drain (chunks : List (List β)) :
    f.feedAll (.waiting []) chunks = f.drain chunks.flatten :=
  f.feedAll_eq_feed (r := .waiting []) (f.drain_incomplete f.front_nil) chunks

end Framer

end EchoNet.Lib
