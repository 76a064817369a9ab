import Mathlib.Data.List.Basic

/-!
# Streams Scanned with a State

A scanner consumes a stream piece by piece and keeps a state in between; now and then it emits a
message.  As for a framer, what it has found does not change when more arrives.  These laws are
fields of `Scanner`, and they are all that is needed for the messages, the state and the unread
rest to depend on the stream only, however it is cut.

## Main results

- `drain_append`: draining goes on from the state and the rest that are left over;
- `feedAll_eq_drain`: feeding chunks one by one is draining the whole stream;
- `drain_invariant`: what every move preserves, draining preserves.
-/

namespace EchoNet.Lib

/-! ## §1 Scanners -/

/-- What a scanner does with the stream in front of it. -/
inductive Move (σ β μ : Type*) where
  | advance (s : σ) (rest : List β)
  | emit (msg : μ) (s : σ) (rest : List β)
  | incomplete
  | invalid

/-- A scanner whose moves are final.  The rank says that it cannot move forever. -/
structure Scanner (σ β μ : Type*) where
  move : σ → List β → Move σ β μ
  rank : σ → List β → Nat
  advance_rank : ∀ {s s' bs rest}, move s bs = .advance s' rest → rank s' rest < rank s bs
  emit_rank : ∀ {s s' bs rest msg}, move s bs = .emit msg s' rest → rank s' rest < rank s bs
  advance_append : ∀ {s s' bs rest}, move s bs = .advance s' rest →
    ∀ more, move s (bs ++ more) = .advance s' (rest ++ more)
  emit_append : ∀ {s s' bs rest msg}, move s bs = .emit msg s' rest →
    ∀ more, move s (bs ++ more) = .emit msg s' (rest ++ more)
  invalid_append : ∀ {s bs}, move s bs = .invalid → ∀ more, move s (bs ++ more) = .invalid

namespace Scanner

variable {σ β μ : Type*} (f : Scanner σ β μ)

/-- The messages of a stream; then the state and the rest in which the scanner waits for more, or
nothing when it has met something invalid. -/
def drain (s : σ) (bs : List β) : List μ × Option (σ × List β) :=
  match h : f.move s bs with
  | .advance s' rest =>
    have := f.advance_rank h
    drain s' rest
  | .emit msg s' rest =>
    have := f.emit_rank h
    (msg :: (drain s' rest).1, (drain s' rest).2)
  | .incomplete => ([], some (s, bs))
  | .invalid => ([], none)
termination_by f.rank s bs

variable {f} {s s' : σ} {bs rest : List β} {msg : μ}

theorem drain_advance (h : f.move s bs = .advance s' rest) : f.drain s bs = f.drain s' rest := by
  rw [drain]
  split
  next h' =>
    rw [h, Move.advance.injEq] at h'
    rw [h'.1, h'.2]
  next h' => rw [h] at h'; cases h'
  next h' => rw [h] at h'; cases h'
  next h' => rw [h] at h'; cases h'

theorem drain_emit (h : f.move s bs = .emit msg s' rest) :
    f.drain s bs = (msg :: (f.drain s' rest).1, (f.drain s' rest).2) := by
  rw [drain]
  split
  next h' => rw [h] at h'; cases h'
  next h' =>
    rw [h, Move.emit.injEq] at h'
    rw [h'.1, h'.2.1, h'.2.2]
  next h' => rw [h] at h'; cases h'
  next h' => rw [h] at h'; cases h'

theorem drain_incomplete (h : f.move s bs = .incomplete) : f.drain s bs = ([], some (s, bs)) := by
  rw [drain]
  split
  next h' => rw [h] at h'; cases h'
  next h' => rw [h] at h'; cases h'
  next => rfl
  next h' => rw [h] at h'; cases h'

theorem drain_invalid (h : f.move s bs = .invalid) : f.drain s bs = ([], none) := by
  rw [drain]
  split
  next h' => rw [h] at h'; cases h'
  next h' => rw [h] at h'; cases h'
  next h' => rw [h] at h'; cases h'
  next => rfl

variable (f) in
/-- The induction that follows `drain`: one case for each move. -/
theorem drain_induction {P : σ → List β → Prop}
    (advance : ∀ s bs s' rest, f.move s bs = .advance s' rest → P s' rest → P s bs)
    (emit : ∀ s bs msg s' rest, f.move s bs = .emit msg s' rest → P s' rest → P s bs)
    (incomplete : ∀ s bs, f.move s bs = .incomplete → P s bs)
    (invalid : ∀ s bs, f.move s bs = .invalid → P s bs) (s : σ) (bs : List β) : P s bs := by
  induction hn : f.rank s bs using Nat.strongRecOn generalizing s bs with
  | ind n ih =>
    subst hn
    cases hmove : f.move s bs with
    | advance s' rest =>
      exact advance s bs s' rest hmove (ih _ (f.advance_rank hmove) s' rest rfl)
    | emit msg s' rest =>
      exact emit s bs msg s' rest hmove (ih _ (f.emit_rank hmove) s' rest rfl)
    | incomplete => exact incomplete s bs hmove
    | invalid => exact invalid s bs hmove

/-- What every move preserves holds where the scanner waits.  The predicate may speak of the
messages emitted so far. -/
theorem drain_invariant {P : List μ → σ → List β → Prop}
    (advance : ∀ msgs s bs s' rest, P msgs s bs → f.move s bs = .advance s' rest → P msgs s' rest)
    (emit : ∀ msgs s bs msg s' rest, P msgs s bs → f.move s bs = .emit msg s' rest →
      P (msgs ++ [msg]) s' rest)
    {before msgs : List μ} (hs : P before s bs) (hdrain : f.drain s bs = (msgs, some (s', rest))) :
    P (before ++ msgs) s' rest := by
  induction s, bs using f.drain_induction generalizing before msgs with
  | advance s bs t tail hmove ih =>
    rw [drain_advance hmove] at hdrain
    exact ih (advance _ _ _ _ _ hs hmove) hdrain
  | emit s bs msg t tail hmove ih =>
    rw [drain_emit hmove, Prod.mk.injEq] at hdrain
    obtain ⟨rfl, hrest⟩ := hdrain
    have h := ih (emit _ _ _ _ _ _ hs hmove) (Prod.ext rfl hrest)
    rwa [List.append_assoc] at h
  | incomplete s bs hmove =>
    rw [drain_incomplete hmove] at hdrain
    cases hdrain
    rwa [List.append_nil]
  | invalid s bs hmove =>
    rw [drain_invalid hmove] at hdrain
    cases hdrain

/-! ## §2 Feeding -/

variable (f)

/-- Some more of the stream: nothing comes after something invalid. -/
def feed : Option (σ × List β) → List β → List μ × Option (σ × List β)
  | some (s, bs), chunk => f.drain s (bs ++ chunk)
  | none, _ => ([], none)

/-- Chunks of the stream, one by one. -/
def feedAll : Option (σ × List β) → List (List β) → List μ × Option (σ × List β)
  | r, [] => ([], r)
  | r, chunk :: chunks =>
    let (msgs, next) := f.feed r chunk
    let (more, last) := feedAll next chunks
    (msgs ++ more, last)

theorem feedAll_none (chunks : List (List β)) : f.feedAll none chunks = ([], none) := by
  induction chunks with
  | nil => rfl
  | cons chunk chunks ih =>
    show (([] : List μ) ++ (f.feedAll none chunks).1, (f.feedAll none chunks).2) = _
    rw [ih]
    rfl

/-- Draining a concatenation goes on from what is left over. -/
theorem drain_append (s : σ) (bs more : List β) :
    f.drain s (bs ++ more) =
      ((f.drain s bs).1 ++ (f.feed (f.drain s bs).2 more).1, (f.feed (f.drain s bs).2 more).2) := by
  induction s, bs using f.drain_induction with
  -- the move is made with or without the bytes behind
  | advance s bs t tail hmove ih =>
    rw [drain_advance (f.advance_append hmove more), drain_advance hmove, ih]
  | emit s bs msg t tail hmove ih =>
    rw [drain_emit (f.emit_append hmove more), drain_emit hmove, ih]
    rfl
  | incomplete s bs hmove =>
    rw [drain_incomplete hmove]
    rfl
  | invalid s bs hmove =>
    rw [drain_invalid hmove, drain_invalid (f.invalid_append hmove more)]
    rfl

variable {f}

/-- A scanner that waits cannot move. -/
theorem move_of_drain {msgs : List μ} (h : f.drain s bs = (msgs, some (s', rest))) :
    f.move s' rest = .incomplete := by
  induction s, bs using f.drain_induction generalizing msgs with
  | advance s bs t tail hmove ih =>
    rw [drain_advance hmove] at h
    exact ih h
  | emit s bs msg t tail hmove ih =>
    rw [drain_emit hmove, Prod.mk.injEq] at h
    exact ih (Prod.ext rfl h.2)
  | incomplete s bs hmove =>
    rw [drain_incomplete hmove] at h
    cases h
    exact hmove
  | invalid s bs hmove =>
    rw [drain_invalid hmove] at h
    cases h

variable (f) in
/-- Feeding two chunks is feeding their concatenation. -/
theorem feed_append (r : Option (σ × List β)) (chunk more : List β) :
    f.feed r (chunk ++ more) =
      ((f.feed r chunk).1 ++ (f.feed (f.feed r chunk).2 more).1,
        (f.feed (f.feed r chunk).2 more).2) := by
  rcases r with _ | ⟨s, bs⟩
  · rfl
  · show f.drain s (bs ++ (chunk ++ more)) = _
    rw [← List.append_assoc]
    exact f.drain_append s (bs ++ chunk) more

/-- Where feeding stops, feeding nothing changes nothing. -/
theorem feed_nil_of_feed (r : Option (σ × List β)) (chunk : List β) :
    f.feed (f.feed r chunk).2 [] = ([], (f.feed r chunk).2) := by
  rcases r with _ | ⟨s, bs⟩
  · rfl
  · cases hres : (f.feed (some (s, bs)) chunk).2 with
    | none => rfl
    | some p =>
      have hmove : f.move p.1 p.2 = .incomplete := move_of_drain (Prod.ext rfl hres)
      show f.drain p.1 (p.2 ++ []) = _
      rw [List.append_nil, drain_incomplete hmove]

/-- Feeding chunks one by one is feeding their concatenation, from where a scanner waits. -/
theorem feedAll_eq_feed {r : Option (σ × List β)} (hr : f.feed r [] = ([], r))
    (chunks : List (List β)) : f.feedAll r chunks = f.feed r chunks.flatten := by
  induction chunks generalizing r with
  | nil => exact hr.symm
  | cons chunk chunks ih =>
    rw [List.flatten_cons, feed_append, ← ih (feed_nil_of_feed r chunk)]
    rfl

/-- Feeding some chunks is draining their concatenation, also behind bytes not looked at yet. -/
theorem feedAll_cons_eq_drain (s : σ) (bs chunk : List β) (chunks : List (List β)) :
    f.feedAll (some (s, bs)) (chunk :: chunks) = f.drain s (bs ++ (chunk :: chunks).flatten) := by
  have hrest := feedAll_eq_feed (feed_nil_of_feed (f := f) (some (s, bs)) chunk) chunks
  show ((f.feed (some (s, bs)) chunk).1 ++ (f.feedAll (f.feed (some (s, bs)) chunk).2 chunks).1,
    (f.feedAll (f.feed (some (s, bs)) chunk).2 chunks).2) = f.feed (some (s, bs)) _
  rw [List.flatten_cons, feed_append, hrest]

/-- However a stream is cut, feeding the chunks is draining the stream. -/
theorem feedAll_eq_drain (h : f.move s bs = .incomplete) (chunks : List (List β)) :
    f.feedAll (some (s, bs)) chunks = f.drain s (bs ++ chunks.flatten) := by
  refine feedAll_eq_feed ?_ chunks
  show f.drain s (bs ++ []) = _
  rw [List.append_nil, drain_incomplete h]

end Scanner

end EchoNet.Lib
