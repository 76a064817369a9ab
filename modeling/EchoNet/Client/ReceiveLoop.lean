import EchoNet.Lib.BigEndian
import Mathlib.Logic.Relation

/-!
# The Receive Loop of the Client

`ChatWindow::parsePacket` and `MainWindow::parsePacket` cut frames off their buffer.  The length
of a frame is `4 + bodyLen` in `uint32_t`, for any `bodyLen` that the network sends: it can be 0,
and a frame can be too short for the fields that are read from it.

`receiveLoop_iff`: on which buffers the loop ends and stays inside of its frames.
-/

namespace EchoNet.Client

open EchoNet.Lib

/-! ## §1 The loop -/

/-- `totalLen` of `ChatWindow`, `total_frame_len` of `MainWindow`. -/
def totalLen (buf : Bytes) : Nat := (4 + beDecode (buf.take 4)) % 2 ^ 32

/-- One iteration: the frame that it cuts off, and what it leaves of the buffer; `none` when the
loop ends. -/
def cut (buf : Bytes) : Option (Bytes × Bytes) :=
  if buf.length < 4 then none
  else if buf.length % 2 ^ 32 < totalLen buf then none
  else some (buf.take (totalLen buf), buf.drop (totalLen buf))

/-- At most `fuel` iterations: the frames and the rest of the buffer, or `none` when the loop has
not ended. -/
def cutAll : Nat → Bytes → Option (List Bytes × Bytes)
  | 0, _ => none
  | fuel + 1, buf =>
    match cut buf with
    | none => some ([], buf)
    | some (frame, rest) => (cutAll fuel rest).map fun (frames, rest) => (frame :: frames, rest)

/-- `ChatWindow::parsePacket`. -/
def ChatWindow.parsePacket (fuel : Nat) (recvBuf : Bytes) : Option (List Bytes × Bytes) :=
  cutAll fuel recvBuf

/-- `MainWindow::parsePacket`. -/
def MainWindow.parsePacket (fuel : Nat) (recvBuf : Bytes) : Option (List Bytes × Bytes) :=
  cutAll fuel recvBuf

/-- The buffers at the head of the loop. -/
def Heads (buf head : Bytes) : Prop :=
  Relation.ReflTransGen (fun b b' => ∃ frame, cut b = some (frame, b')) buf head

/-- The loop `parsePacket` ends; an iteration that does not break takes a part of the buffer that
is not empty; and the two bytes of the type and the four of the id, from offset 4 on, are inside of
it. -/
structure RunsWell (parsePacket : Nat → Bytes → Option (List Bytes × Bytes)) (buf : Bytes) :
    Prop where
  terminates : ∃ fuel, (parsePacket fuel buf).isSome = true
  progress : ∀ head frame rest, Heads buf head → cut head = some (frame, rest) →
    frame ≠ [] ∧ head = frame ++ rest
  inBounds : ∀ head frame rest, Heads buf head → cut head = some (frame, rest) →
    4 + 2 + 4 ≤ frame.length

/-! ## §2 Buffers of frames -/

/-- A complete frame, with a length that holds the fields and does not wrap. -/
structure IsFrame (frame : Bytes) : Prop where
  length : frame.length = 4 + beDecode (frame.take 4)
  fields : 6 ≤ beDecode (frame.take 4)
  noWrap : beDecode (frame.take 4) < 2 ^ 32 - 4

/-- What the loop leaves in the buffer until more arrives. -/
def Incomplete (buf : Bytes) : Prop := buf.length < 4 ∨ buf.length % 2 ^ 32 < totalLen buf

/-- Complete frames, and an incomplete rest behind them. -/
inductive Framed : Bytes → Prop
  | rest {buf : Bytes} (h : Incomplete buf) : Framed buf
  | frame {frame buf : Bytes} (h : IsFrame frame) (hrest : Framed buf) : Framed (frame ++ buf)

variable {buf frame rest : Bytes}

theorem cut_eq_none : cut buf = none ↔ Incomplete buf := by
  unfold cut Incomplete
  split_ifs with hshort hlen
  · exact iff_of_true rfl (Or.inl hshort)
  · exact iff_of_true rfl (Or.inr hlen)
  · exact iff_of_false (by simp) (not_or.mpr ⟨hshort, hlen⟩)

theorem cut_eq_some (h : cut buf = some (frame, rest)) :
    4 ≤ buf.length ∧ totalLen buf ≤ buf.length ∧ frame = buf.take (totalLen buf) ∧
      rest = buf.drop (totalLen buf) := by
  unfold cut at h
  split_ifs at h with hshort hlen
  obtain ⟨rfl, rfl⟩ := Prod.mk.inj (Option.some.inj h)
  have hmod := Nat.mod_le buf.length (2 ^ 32)
  exact ⟨by omega, by omega, rfl, rfl⟩

theorem eq_append_of_cut (h : cut buf = some (frame, rest)) : buf = frame ++ rest := by
  obtain ⟨-, -, rfl, rfl⟩ := cut_eq_some h
  exact (List.take_append_drop _ _).symm

theorem totalLen_of_isFrame (h : IsFrame frame) (rest : Bytes) :
    totalLen (frame ++ rest) = frame.length := by
  have hlen := h.length
  have hwrap := h.noWrap
  have htake : (frame ++ rest).take 4 = frame.take 4 := List.take_append_of_le_length (by omega)
  unfold totalLen
  rw [htake, hlen]
  exact Nat.mod_eq_of_lt (by omega)

/-- In front of a frame the loop waits, or cuts off that frame. -/
theorem cut_of_isFrame (h : IsFrame frame) (hcut : cut (frame ++ rest) ≠ none) :
    cut (frame ++ rest) = some (frame, rest) := by
  unfold cut at hcut ⊢
  split_ifs at hcut ⊢
  · exact absurd rfl hcut
  · exact absurd rfl hcut
  · rw [totalLen_of_isFrame h, List.take_left' rfl, List.drop_left' rfl]

/-- A part that holds the fields is a frame. -/
theorem isFrame_of_cut (h : cut buf = some (frame, rest)) (hlen : 10 ≤ frame.length) :
    IsFrame frame := by
  obtain ⟨hfour, htotal, rfl, -⟩ := cut_eq_some h
  rw [List.length_take_of_le htotal] at hlen
  have htake : (buf.take (totalLen buf)).take 4 = buf.take 4 := by
    rw [List.take_take, Nat.min_eq_left (by omega)]
  have hbound := beDecode_lt (buf.take 4)
  rw [List.length_take_of_le hfour] at hbound
  unfold totalLen at *
  refine ⟨?_, ?_, ?_⟩
  · rw [htake, List.length_take_of_le htotal]
    omega
  · rw [htake]
    omega
  · rw [htake]
    omega

/-! ## §3 When the loop runs well -/

/-- An iteration on frames cuts off a frame, and leaves frames. -/
theorem Framed.cut (h : Framed buf) (hcut : cut buf = some (frame, rest)) :
    IsFrame frame ∧ Framed rest := by
  cases h with
  | rest hincomplete =>
    rw [cut_eq_none.mpr hincomplete] at hcut
    cases hcut
  | frame hframe hrest =>
    rw [cut_of_isFrame hframe (by rw [hcut]; exact Option.some_ne_none _)] at hcut
    obtain ⟨rfl, rfl⟩ := Prod.mk.inj (Option.some.inj hcut)
    exact ⟨hframe, hrest⟩

theorem Framed.heads {head : Bytes} (h : Framed buf) (hheads : Heads buf head) : Framed head := by
  induction hheads with
  | refl => exact h
  | tail _ hstep ih =>
    obtain ⟨frame, hcut⟩ := hstep
    exact (ih.cut hcut).2

/-- A frame is long enough for its fields. -/
theorem IsFrame.le_length (h : IsFrame frame) : 10 ≤ frame.length := by
  have hlen := h.length
  have hfields := h.fields
  omega

/-- The buffer gets shorter with every frame. -/
theorem Framed.terminates (h : Framed buf) {fuel : Nat} (hfuel : buf.length < fuel) :
    (cutAll fuel buf).isSome = true := by
  induction fuel generalizing buf with
  | zero => exact absurd hfuel (Nat.not_lt_zero _)
  | succ fuel ih =>
    rw [cutAll]
    cases hcut : Client.cut buf with
    | none => rfl
    | some parts =>
      obtain ⟨frame, rest⟩ := parts
      obtain ⟨hframe, hrest⟩ := h.cut hcut
      have hlen := congrArg List.length (eq_append_of_cut hcut)
      rw [List.length_append] at hlen
      have hten := hframe.le_length
      rw [Option.isSome_map]
      exact ih hrest (by omega)

/-- Iterations that are all in bounds and come to an end have cut off frames. -/
theorem framed_of_cutAll {fuel : Nat} (h : (cutAll fuel buf).isSome = true)
    (hbounds : ∀ head frame rest, Heads buf head → cut head = some (frame, rest) →
      10 ≤ frame.length) : Framed buf := by
  induction fuel generalizing buf with
  | zero => cases h
  | succ fuel ih =>
    rw [cutAll] at h
    cases hcut : cut buf with
    | none => exact .rest (cut_eq_none.mp hcut)
    | some parts =>
      obtain ⟨frame, rest⟩ := parts
      rw [hcut, Option.isSome_map] at h
      rw [eq_append_of_cut hcut]
      have hframe := isFrame_of_cut hcut (hbounds buf frame rest .refl hcut)
      exact .frame hframe (ih h fun head frame' rest' hheads =>
        hbounds head frame' rest' (.head ⟨frame, hcut⟩ hheads))

theorem runsWell_cutAll_iff : RunsWell cutAll buf ↔ Framed buf := by
  constructor
  · intro h
    obtain ⟨fuel, hfuel⟩ := h.terminates
    exact framed_of_cutAll hfuel h.inBounds
  · intro h
    refine ⟨⟨buf.length + 1, h.terminates (Nat.lt_succ_self _)⟩, ?_, ?_⟩
    · intro head frame rest hheads hcut
      refine ⟨?_, eq_append_of_cut hcut⟩
      have hten := ((h.heads hheads).cut hcut).1.le_length
      rintro rfl
      exact absurd hten (by decide)
    · intro head frame rest hheads hcut
      exact ((h.heads hheads).cut hcut).1.le_length

/-- The loops of both windows run well on complete frames with a length field from 6 on, up to
2^32 - 5, and an incomplete rest behind them, and on no other buffer. -/
theorem receiveLoop_iff (buf : Bytes) :
    (RunsWell ChatWindow.parsePacket buf ↔ Framed buf) ∧
      (RunsWell MainWindow.parsePacket buf ↔ Framed buf) :=
  ⟨runsWell_cutAll_iff, runsWell_cutAll_iff⟩

/-- A length field of 2^32 - 4: the frame is empty, and the buffer stays as it is. -/
theorem receiveLoop_stuck :
    ¬RunsWell ChatWindow.parsePacket [0xFF, 0xFF, 0xFF, 0xFC] ∧
      ∀ fuel, ChatWindow.parsePacket fuel [0xFF, 0xFF, 0xFF, 0xFC] = none := by
  have hcut : cut [0xFF, 0xFF, 0xFF, 0xFC] = some ([], [0xFF, 0xFF, 0xFF, 0xFC]) := by
    decide +kernel
  refine ⟨fun h => (h.progress _ _ _ .refl hcut).1 rfl, fun fuel => ?_⟩
  show cutAll fuel _ = none
  induction fuel with
  | zero => rfl
  | succ fuel ih =>
    rw [cutAll, hcut]
    dsimp only
    rw [ih, Option.map_none]

/-- A length field of 0: the fields are read behind the frame. -/
example : cut [0, 0, 0, 0] = some ([0, 0, 0, 0], []) := by decide +kernel

end EchoNet.Client
