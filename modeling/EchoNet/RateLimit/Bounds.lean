import EchoNet.RateLimit.TokenBucket
import Mathlib.Tactic.Linarith

/-!
# What a Token Bucket Lets Through

Sequences of `tryAcquire` and `removeKey` calls at non-decreasing times.  The level of a key pays
for every call that succeeds on it, and time refills it at most at `rate`; removing the key fills
it up at once.  No call reads or writes the bucket of another key.
-/

namespace EchoNet.RateLimit

namespace TokenBucket

variable {κ : Type*}

/-! ## §1 Bounds of the counts -/

/-- At the time `now` no key is in debt, and no stored count is out of bounds. -/
structure Bounded (t : TokenBucket κ) (now : ℚ) : Prop where
  rate_nonneg : 0 ≤ t.rate
  level_nonneg : ∀ key, 0 ≤ t.level now key
  tokens : ∀ key b, t.buckets key = some b → 0 ≤ b.tokens ∧ b.tokens ≤ t.capacity

theorem bounded_new {rate capacity : ℚ} (hrate : 0 ≤ rate) (hcapacity : 0 ≤ capacity) (now : ℚ) :
    (new rate capacity : TokenBucket κ).Bounded now where
  rate_nonneg := hrate
  level_nonneg key := by rwa [level_new]
  tokens key b hb := absurd hb (by simp [new])

theorem Bounded.later {t : TokenBucket κ} {now now' : ℚ} (h : t.Bounded now) (hle : now ≤ now') :
    t.Bounded now' where
  rate_nonneg := h.rate_nonneg
  level_nonneg key := (h.level_nonneg key).trans (level_le_later h.rate_nonneg hle key)
  tokens := h.tokens

variable [DecidableEq κ]

/-! ## §2 Calls and their log -/

/-- A call on a bucket, with the time at which it reads the clock. -/
inductive Op (κ : Type*)
  | tryAcquire (now : ℚ) (key : κ)
  | removeKey (now : ℚ) (key : κ)
  deriving DecidableEq

/-- The time of a call. -/
def Op.time : Op κ → ℚ
  | .tryAcquire now _ => now
  | .removeKey now _ => now

/-- The key of a call. -/
def Op.key : Op κ → κ
  | .tryAcquire _ key => key
  | .removeKey _ key => key

/-- A call and what it returns; `removeKey` returns nothing. -/
def call (t : TokenBucket κ) : Op κ → TokenBucket κ × Bool
  | .tryAcquire now key => t.tryAcquire now key
  | .removeKey _ key => (t.removeKey key, false)

/-- The bucket after a list of calls. -/
def calls (t : TokenBucket κ) (ops : List (Op κ)) : TokenBucket κ :=
  ops.foldl (fun t op => (t.call op).1) t

/-- The calls, each with its answer. -/
def log : TokenBucket κ → List (Op κ) → List (Op κ × Bool)
  | _, [] => []
  | t, op :: ops => (op, (t.call op).2) :: log (t.call op).1 ops

/-- The entry of a call on `key` that succeeded between `a` and `b`. -/
def Success (key : κ) (a b : ℚ) (e : Op κ × Bool) : Bool :=
  e.2 && e.1.key = key && a ≤ e.1.time && e.1.time ≤ b

@[simp] theorem calls_nil (t : TokenBucket κ) : t.calls [] = t := rfl

@[simp] theorem calls_cons (t : TokenBucket κ) (op : Op κ) (ops : List (Op κ)) :
    t.calls (op :: ops) = (t.call op).1.calls ops := rfl

theorem log_append (t : TokenBucket κ) (ops ops' : List (Op κ)) :
    t.log (ops ++ ops') = t.log ops ++ (t.calls ops).log ops' := by
  induction ops generalizing t with
  | nil => rfl
  | cons op ops ih =>
    rw [List.cons_append, log, ih, calls_cons]
    rfl

theorem fst_mem_of_mem_log {t : TokenBucket κ} {ops : List (Op κ)} {e : Op κ × Bool}
    (h : e ∈ t.log ops) : e.1 ∈ ops := by
  induction ops generalizing t with
  | nil => exact absurd h List.not_mem_nil
  | cons op ops ih =>
    rcases List.mem_cons.mp h with rfl | h
    · exact List.mem_cons_self ..
    · exact List.mem_cons_of_mem op (ih h)

@[simp] theorem call_rate (t : TokenBucket κ) (op : Op κ) : (t.call op).1.rate = t.rate := by
  cases op with
  | tryAcquire now key => exact t.tryAcquire_rate now key
  | removeKey now key => rfl

@[simp] theorem call_capacity (t : TokenBucket κ) (op : Op κ) :
    (t.call op).1.capacity = t.capacity := by
  cases op with
  | tryAcquire now key => exact t.tryAcquire_capacity now key
  | removeKey now key => rfl

@[simp] theorem calls_rate (t : TokenBucket κ) (ops : List (Op κ)) :
    (t.calls ops).rate = t.rate := by
  induction ops generalizing t with
  | nil => rfl
  | cons op ops ih => rw [calls_cons, ih, call_rate]

@[simp] theorem calls_capacity (t : TokenBucket κ) (ops : List (Op κ)) :
    (t.calls ops).capacity = t.capacity := by
  induction ops generalizing t with
  | nil => rfl
  | cons op ops ih => rw [calls_cons, ih, call_capacity]

/-- A call leaves the level of every other key as it is. -/
theorem level_call_of_ne (t : TokenBucket κ) (op : Op κ) (now : ℚ) {key : κ} (h : key ≠ op.key) :
    (t.call op).1.level now key = t.level now key := by
  cases op with
  | tryAcquire now' key' => exact level_tryAcquire_of_ne t now' now h
  | removeKey now' key' => exact level_removeKey_of_ne t now h

variable {t : TokenBucket κ} {now now' : ℚ} {ops : List (Op κ)} {key : κ} {a b : ℚ}

theorem Bounded.tryAcquire (h : t.Bounded now) (key : κ) :
    (t.tryAcquire now key).1.Bounded now where
  rate_nonneg := by
    rw [tryAcquire_rate]
    exact h.rate_nonneg
  level_nonneg := le_level_tryAcquire (le_refl 0) key h.level_nonneg
  tokens key' b hb := by
    rw [tryAcquire_capacity]
    by_cases hkey : key' = key
    · subst hkey
      -- what is stored is the level that the call leaves
      have hlevel := le_level_tryAcquire (le_refl 0) key' h.level_nonneg key'
      rw [level_tryAcquire_self] at hlevel
      rw [tryAcquire_buckets] at hb
      obtain rfl := Option.some.inj hb
      refine ⟨hlevel, (sub_le_self _ ?_).trans (t.level_le_capacity now key')⟩
      split_ifs
      · exact zero_le_one
      · exact le_refl 0
    · rw [tryAcquire_buckets_of_ne t now hkey] at hb
      exact h.tokens key' b hb

theorem Bounded.removeKey (h : t.Bounded now) (key : κ) : (t.removeKey key).Bounded now where
  rate_nonneg := h.rate_nonneg
  level_nonneg key' := by
    by_cases hkey : key' = key
    · subst hkey
      rw [level_removeKey]
      exact (h.level_nonneg key').trans (t.level_le_capacity now key')
    · rw [level_removeKey_of_ne t now hkey]
      exact h.level_nonneg key'
  tokens key' b hb := by
    by_cases hkey : key' = key
    · subst hkey
      exact absurd ((Function.update_self ..).symm.trans hb) (by simp)
    · exact h.tokens key' b ((Function.update_of_ne hkey _ _).symm.trans hb)

theorem Bounded.call (h : t.Bounded now) {op : Op κ} (hle : now ≤ op.time) :
    (t.call op).1.Bounded op.time := by
  cases op with
  | tryAcquire now' key => exact (h.later hle).tryAcquire key
  | removeKey now' key => exact (h.later hle).removeKey key

/-- Calls in the order of their times keep the bounds. -/
theorem Bounded.calls (h : t.Bounded now) (hnow : ∀ op ∈ ops, now ≤ op.time)
    (htimes : (ops.map Op.time).Pairwise (· ≤ ·)) (hlast : ∀ op ∈ ops, op.time ≤ now')
    (hle : now ≤ now') : (t.calls ops).Bounded now' := by
  induction ops generalizing t now with
  | nil => exact h.later hle
  | cons op ops ih =>
    rw [List.map_cons, List.pairwise_cons] at htimes
    rw [calls_cons]
    apply ih (h.call (hnow op (List.mem_cons_self ..)))
    · intro op' hop'
      exact htimes.1 _ (List.mem_map_of_mem hop')
    · exact htimes.2
    · intro op' hop'
      exact hlast op' (List.mem_cons_of_mem op hop')
    · exact hlast op (List.mem_cons_self ..)

/-- What the calls up to `now` leave of a new bucket. -/
theorem bounded_calls_new {rate capacity : ℚ} (hrate : 0 ≤ rate) (hcapacity : 0 ≤ capacity)
    (htimes : (ops.map Op.time).Pairwise (· ≤ ·)) (hlast : ∀ op ∈ ops, op.time ≤ now) :
    ((new rate capacity).calls ops).Bounded now := by
  cases ops with
  | nil => exact bounded_new hrate hcapacity now
  | cons op ops =>
    rw [List.map_cons, List.pairwise_cons] at htimes
    have hfirst : ∀ op' ∈ op :: ops, op.time ≤ op'.time :=
      List.forall_mem_cons.mpr
        ⟨le_refl op.time, fun op' hop' => htimes.1 _ (List.mem_map_of_mem hop')⟩
    exact (bounded_new hrate hcapacity op.time).calls hfirst (List.pairwise_cons.mpr htimes) hlast
      (hlast op (List.mem_cons_self ..))

theorem exists_bounded_calls_new {rate capacity : ℚ} (hrate : 0 ≤ rate) (hcapacity : 0 ≤ capacity)
    (htimes : (ops.map Op.time).Pairwise (· ≤ ·)) :
    ∃ now, ((new rate capacity).calls ops).Bounded now := by
  rcases ops.eq_nil_or_concat with rfl | ⟨ops, last, rfl⟩
  · exact ⟨0, bounded_new hrate hcapacity 0⟩
  · refine ⟨last.time, bounded_calls_new hrate hcapacity htimes fun op hop => ?_⟩
    rw [List.concat_eq_append, List.map_append, List.pairwise_append] at htimes
    rw [List.concat_eq_append] at hop
    rcases List.mem_append.mp hop with hop | hop
    · exact htimes.2.2 _ (List.mem_map_of_mem hop) _ (List.mem_singleton_self _)
    · rw [List.mem_singleton.mp hop]

/-! ## §3 Windows -/

/-- A call that succeeds on the key is paid by its level. -/
theorem success_add_level_le (h : t.Bounded now) {op : Op κ} (hle : now ≤ op.time)
    (hkeep : op ≠ .removeKey op.time key) :
    (if Success key a b (op, (t.call op).2) then 1 else 0) + (t.call op).1.level op.time key ≤
      t.level now key + t.rate * (op.time - now) := by
  have hlater := level_later_le h.rate_nonneg hle key
  rw [mul_comm] at hlater
  by_cases hkey : key = op.key
  · cases op with
    | removeKey now' key' => exact absurd (congrArg (Op.removeKey now') hkey.symm) hkeep
    | tryAcquire now' key' =>
      obtain rfl : key = key' := hkey
      have hself := level_tryAcquire_self t now' key
      have hsuccess :
          (if Success key a b (.tryAcquire now' key, t.admits now' key) then 1 else 0 : ℚ) ≤
            if t.admits now' key then 1 else 0 := by
        by_cases hadmits : t.admits now' key
        · rw [if_pos hadmits]
          split_ifs
          · exact le_refl 1
          · exact zero_le_one
        · rw [if_neg hadmits, if_neg (by simp [Success, hadmits])]
      simp only [call, tryAcquire_snd, Op.time] at hlater ⊢
      linarith
  · rw [level_call_of_ne t op op.time hkey, if_neg (by simp [Success, Ne.symm hkey]), zero_add]
    exact hlater

/-- From `now` on, the level of a key and what it gains until `b` pay for its successes. -/
theorem successes_le_level (h : t.Bounded now) (hb : now ≤ b)
    (hwindow : ∀ op ∈ ops, now ≤ op.time ∧ op.time ≤ b)
    (htimes : (ops.map Op.time).Pairwise (· ≤ ·)) (hkeep : ∀ time, .removeKey time key ∉ ops) :
    ((t.log ops).countP (Success key a b) : ℚ) ≤ t.level now key + t.rate * (b - now) := by
  induction ops generalizing t now with
  | nil => exact add_nonneg (h.level_nonneg key) (mul_nonneg h.rate_nonneg (sub_nonneg.mpr hb))
  | cons op ops ih =>
    rw [List.map_cons, List.pairwise_cons] at htimes
    have hop := hwindow op (List.mem_cons_self ..)
    have hfirst : (if Success key a b (op, (t.call op).2) then 1 else 0) +
        (t.call op).1.level op.time key ≤ t.level now key + t.rate * (op.time - now) :=
      success_add_level_le h hop.1 fun hremove =>
        hkeep op.time (hremove ▸ List.mem_cons_self ..)
    have hrest := ih (h.call hop.1) hop.2
      (fun op' hop' =>
        ⟨htimes.1 _ (List.mem_map_of_mem hop'), (hwindow op' (List.mem_cons_of_mem op hop')).2⟩)
      htimes.2 (fun time hmem => hkeep time (List.mem_cons_of_mem op hmem))
    rw [call_rate] at hrest
    rw [log, List.countP_cons, Nat.cast_add, Nat.cast_ite, Nat.cast_one, Nat.cast_zero]
    linarith

/-- A stretch of calls within `[a, b]` that never removes the key. -/
theorem successes_le_capacity (h : t.Bounded a) (hab : a ≤ b)
    (hwindow : ∀ op ∈ ops, a ≤ op.time ∧ op.time ≤ b)
    (htimes : (ops.map Op.time).Pairwise (· ≤ ·)) (hkeep : ∀ time, .removeKey time key ∉ ops) :
    ((t.log ops).countP (Success key a b) : ℚ) ≤ t.capacity + t.rate * (b - a) :=
  (successes_le_level h hab hwindow htimes hkeep).trans
    (add_le_add_left (t.level_le_capacity a key) _)

/-- Calls outside of the window have no success in it. -/
theorem successes_eq_zero (h : ∀ op ∈ ops, ¬(a ≤ op.time ∧ op.time ≤ b)) :
    (t.log ops).countP (Success key a b) = 0 := by
  rw [List.countP_eq_zero]
  intro e he hsuccess
  simp only [Success, Bool.and_eq_true, decide_eq_true_eq] at hsuccess
  exact h e.1 (fst_mem_of_mem_log he) ⟨hsuccess.1.2, hsuccess.2⟩

/-- Calls at non-decreasing times are those before a time followed by the others. -/
theorem exists_append_of_times {κ : Type*} {ops : List (Op κ)}
    (htimes : (ops.map Op.time).Pairwise (· ≤ ·)) (p : ℚ → Prop)
    (hp : ∀ x y, x ≤ y → p y → p x) :
    ∃ xs ys, ops = xs ++ ys ∧ (∀ op ∈ xs, p op.time) ∧ ∀ op ∈ ys, ¬p op.time := by
  induction ops with
  | nil => exact ⟨[], [], rfl, by simp, by simp⟩
  | cons op ops ih =>
    rw [List.map_cons, List.pairwise_cons] at htimes
    by_cases hop : p op.time
    · obtain ⟨xs, ys, rfl, hxs, hys⟩ := ih htimes.2
      exact ⟨op :: xs, ys, rfl, List.forall_mem_cons.mpr ⟨hop, hxs⟩, hys⟩
    · refine ⟨[], op :: ops, rfl, by simp, List.forall_mem_cons.mpr ⟨hop, fun op' hop' => ?_⟩⟩
      exact fun h => hop (hp _ _ (htimes.1 _ (List.mem_map_of_mem hop')) h)

/-- Any window of any sequence of calls. -/
theorem successes_le_window {rate capacity : ℚ} (hrate : 0 ≤ rate) (hcapacity : 0 ≤ capacity)
    (htimes : (ops.map Op.time).Pairwise (· ≤ ·)) (hab : a ≤ b)
    (hkeep : ∀ time, .removeKey time key ∈ ops → ¬(a ≤ time ∧ time ≤ b)) :
    (((new rate capacity).log ops).countP (Success key a b) : ℚ) ≤
      capacity + rate * (b - a) := by
  obtain ⟨early, rest, rfl, hearly, hrest⟩ :=
    exists_append_of_times htimes (· < a) fun x y => lt_of_le_of_lt
  rw [List.map_append, List.pairwise_append] at htimes
  obtain ⟨window, late, rfl, hwindow, hlate⟩ :=
    exists_append_of_times htimes.2.1 (· ≤ b) fun x y => le_trans
  rw [List.map_append, List.pairwise_append] at htimes
  -- `new` has the bounds when the window begins, and nothing before or after it counts
  have hbounded := bounded_calls_new hrate hcapacity htimes.1 fun op hop => (hearly op hop).le
  have hinside : ∀ op ∈ window, a ≤ op.time ∧ op.time ≤ b := fun op hop =>
    ⟨not_lt.mp (hrest op (List.mem_append_left late hop)), hwindow op hop⟩
  have hkept : ∀ time, .removeKey time key ∉ window := fun time hmem =>
    hkeep time (by simp [hmem]) (hinside _ hmem)
  have hbound := successes_le_capacity hbounded hab hinside htimes.2.1.1 hkept
  rw [log_append, log_append, List.countP_append, List.countP_append,
    successes_eq_zero fun op hop h => absurd (hearly op hop) (not_lt.mpr h.1),
    successes_eq_zero fun op hop h => absurd h.2 (hlate op hop), zero_add, add_zero]
  rwa [calls_rate, calls_capacity] at hbound

/-! ## §4 Keys -/

/-- A call on another key. -/
theorem call_buckets_of_ne (t : TokenBucket κ) {op : Op κ} (h : op.key ≠ key) :
    (t.call op).1.buckets key = t.buckets key := by
  cases op with
  | tryAcquire now key' => exact t.tryAcquire_buckets_of_ne now h.symm
  | removeKey now key' => exact Function.update_of_ne (Ne.symm h) _ _

/-- A call reads nothing but the bucket of its key. -/
theorem call_congr {t u : TokenBucket κ} (hrate : u.rate = t.rate)
    (hcapacity : u.capacity = t.capacity) {op : Op κ}
    (hbuckets : u.buckets op.key = t.buckets op.key) :
    (u.call op).2 = (t.call op).2 ∧
      (u.call op).1.buckets op.key = (t.call op).1.buckets op.key := by
  cases op with
  | tryAcquire now key =>
    have hlevel : u.level now key = t.level now key := level_congr hrate hcapacity hbuckets now
    have hadmits : u.admits now key = t.admits now key := by
      rw [Bool.eq_iff_iff, admits_iff, admits_iff, hlevel]
    refine ⟨by simpa only [call, tryAcquire_snd] using hadmits, ?_⟩
    show (u.tryAcquire now key).1.buckets key = (t.tryAcquire now key).1.buckets key
    rw [tryAcquire_buckets, tryAcquire_buckets, hlevel, hadmits]
  | removeKey now key =>
    refine ⟨rfl, ?_⟩
    show Function.update u.buckets key none key = Function.update t.buckets key none key
    rw [Function.update_self, Function.update_self]

/-- The answers on a key, from a bucket that agrees on it. -/
theorem log_filter {t u : TokenBucket κ} (hrate : u.rate = t.rate)
    (hcapacity : u.capacity = t.capacity) (hbuckets : u.buckets key = t.buckets key)
    (ops : List (Op κ)) :
    (u.log ops).filter (fun e => e.1.key = key) = t.log (ops.filter fun op => op.key = key) := by
  induction ops generalizing t u with
  | nil => rfl
  | cons op ops ih =>
    by_cases hkey : op.key = key
    · subst hkey
      obtain ⟨hanswer, hbucket⟩ := call_congr hrate hcapacity hbuckets
      rw [log, List.filter_cons_of_pos (by simp), List.filter_cons_of_pos (by simp), log, hanswer]
      congr 1
      apply ih
      · rw [call_rate, call_rate, hrate]
      · rw [call_capacity, call_capacity, hcapacity]
      · exact hbucket
    · rw [log, List.filter_cons_of_neg (by simpa using hkey),
        List.filter_cons_of_neg (by simpa using hkey)]
      apply ih
      · rw [call_rate, hrate]
      · rw [call_capacity, hcapacity]
      · rw [call_buckets_of_ne u hkey, hbuckets]

/-! ## §5 The bound -/

/-- Every run of calls: the stored counts, the successes on a key in any window that does not
remove it, and its answers, which are those that it would get alone. -/
theorem bounds_of_calls {rate capacity : ℚ} (hrate : 0 ≤ rate) (hcapacity : 0 ≤ capacity)
    {ops : List (Op κ)} (htimes : (ops.map Op.time).Pairwise (· ≤ ·)) (key : κ) :
    (∀ b, ((new rate capacity).calls ops).buckets key = some b →
      0 ≤ b.tokens ∧ b.tokens ≤ capacity) ∧
    (∀ a b, a ≤ b → (∀ time, .removeKey time key ∈ ops → ¬(a ≤ time ∧ time ≤ b)) →
      (((new rate capacity).log ops).countP (Success key a b) : ℚ) ≤
        capacity + rate * (b - a)) ∧
    ((new rate capacity).log ops).filter (fun e => e.1.key = key) =
      (new rate capacity).log (ops.filter fun op => op.key = key) := by
  refine ⟨fun b hb => ?_, fun a b hab hkeep => ?_, log_filter rfl rfl rfl ops⟩
  · obtain ⟨now, hbounded⟩ := exists_bounded_calls_new hrate hcapacity htimes
    have htokens := hbounded.tokens key b hb
    rwa [calls_capacity] at htokens
  · exact successes_le_window hrate hcapacity htimes hab hkeep

/-- Two of three calls in a moment, and both tokens are back after a second. -/
theorem bounds_of_calls_two :
    (((new 2 2 : TokenBucket String).log
      [.tryAcquire 0 "a", .tryAcquire 0 "a", .tryAcquire 0 "b", .tryAcquire 0 "a",
        .tryAcquire 1 "a", .removeKey 1 "b"]).countP (Success "a" 0 1) : ℚ) ≤ 2 + 2 * (1 - 0) :=
  (bounds_of_calls (by decide) (by decide) (by decide +kernel) "a").2.1 0 1 (by decide)
    fun time hmem => by simp at hmem

end TokenBucket

end EchoNet.RateLimit
