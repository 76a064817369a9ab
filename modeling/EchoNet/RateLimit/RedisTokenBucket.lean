import EchoNet.Lib.Text
import EchoNet.RateLimit.TokenBucket
import Mathlib.Algebra.Order.Ring.Cast
import Mathlib.Tactic.Linarith

/-!
# The Token Bucket in Redis

`RedisTokenBucket` (src/src/RateLimit/RedisTokenBucket.cpp) keeps a bucket under two keys of Redis,
the tokens under `key` and the time of the last call under `key:t`.  Both expire after 60 seconds,
and `removeKey` deletes the first one only.  Redis runs a script as one step; the times are whole
seconds, the arithmetic is exact.  Rate and capacity are passed on as texts, with six decimals.

## Main results

- `limiters_agree`: on keys that do not meet in Redis, the two limiters answer alike, as long as a
  bucket is full again after 60 seconds and six decimals are enough for its rate and capacity;
- `limiters_disagree`: the time of one key is the tokens of another, and a third of a token a
  second is not a token in three seconds.
-/

namespace EchoNet.RateLimit

open EchoNet.Lib

/-! ## §1 The store and the script -/

/-- A number in Redis, and when it expires. -/
structure Entry where
  value : ℚ
  expires : Nat
  deriving DecidableEq, Repr

/-- The part of Redis that the limiter uses. -/
abbrev RedisStore := Bytes → Option Entry

namespace RedisStore

/-- `GET`. -/
def get (r : RedisStore) (now : Nat) (key : Bytes) : Option ℚ :=
  match r key with
  | some e => if now < e.expires then some e.value else none
  | none => none

/-- `SET` and `EXPIRE 60`. -/
def setExpiring (r : RedisStore) (now : Nat) (key : Bytes) (value : ℚ) : RedisStore :=
  Function.update r key (some ⟨value, now + 60⟩)

/-- `DEL`. -/
def del (r : RedisStore) (key : Bytes) : RedisStore := Function.update r key none

end RedisStore

/-- What `c_str()` and the `%s` of `redisCommand` make of a string. -/
def cStr (key : Bytes) : Bytes := key.takeWhile (· ≠ 0)

theorem cStr_append_of_notMem {a : Bytes} (h : 0 ∉ a) (b : Bytes) : cStr (a ++ b) = a ++ cStr b :=
  List.takeWhile_append_of_pos fun _ hc => decide_eq_true fun hzero => h (hzero ▸ hc)

theorem cStr_eq_self {a : Bytes} (h : 0 ∉ a) : cStr a = a := by
  rw [← List.append_nil a, cStr_append_of_notMem h]
  rfl

theorem cStr_append_zero {a : Bytes} (h : 0 ∉ a) (b : Bytes) : cStr (a ++ 0 :: b) = a := by
  rw [cStr_append_of_notMem h]
  exact List.append_nil a

theorem zero_notMem_cStr (a : Bytes) : 0 ∉ cStr a := by
  intro h
  have hne := List.mem_takeWhile_imp (show 0 ∈ a.takeWhile (· ≠ 0) from h)
  exact absurd hne (by decide)

/-- The nearest integer, and of two the even one. -/
def nearestEven (x : ℚ) : ℤ :=
  let below := x.floor
  if x - below < 1 / 2 ∨ x - below = 1 / 2 ∧ below % 2 = 0 then below else below + 1

/-- The number that the `%f` of `redisCommand` writes: six decimals. -/
def percentF (x : ℚ) : ℚ := nearestEven (x * 1000000) / 1000000

/-- Six decimals are enough to write the number. -/
def SixDecimals (x : ℚ) : Prop := ∃ n : ℤ, x = n / 1000000

theorem nearestEven_intCast (n : ℤ) : nearestEven n = n := by
  have hbelow : ((n : ℚ).floor : ℚ) = n := by rw [Rat.floor_intCast]
  unfold nearestEven
  dsimp only
  rw [hbelow, sub_self, if_pos (Or.inl (by norm_num)), Rat.floor_intCast]

theorem SixDecimals.percentF_eq {x : ℚ} (h : SixDecimals x) : percentF x = x := by
  obtain ⟨n, rfl⟩ := h
  have hwhole : (n : ℚ) / 1000000 * 1000000 = n := div_mul_cancel₀ _ (by decide)
  rw [percentF, hwhole, nearestEven_intCast]

/-- `key .. ':t'`. -/
def timeKey (key : Bytes) : Bytes := key ++ ascii ":t"

namespace RedisStore

/-- The tokens of the script after the refill. -/
def refilled (r : RedisStore) (key : Bytes) (rate capacity : ℚ) (now : Nat) : ℚ :=
  let tokens := (r.get now key).getD capacity
  let last := (r.get now (timeKey key)).getD now
  let elapsed := now - last
  min capacity (tokens + elapsed * rate)

/-- `LUA_SCRIPT`. -/
def script (r : RedisStore) (key : Bytes) (rate capacity : ℚ) (now : Nat) : RedisStore × Bool :=
  let tokens := r.refilled key rate capacity now
  let allowed := decide (1 ≤ tokens)
  let tokens := if allowed then tokens - 1 else tokens
  ((r.setExpiring now key tokens).setExpiring now (timeKey key) now, allowed)

end RedisStore

/-- `class RedisTokenBucket`, with the Redis that it talks to. -/
structure RedisTokenBucket where
  rate : ℚ
  capacity : ℚ
  store : RedisStore

namespace RedisTokenBucket

/-- The constructor, before an empty Redis. -/
def new (rate capacity : ℚ) : RedisTokenBucket := ⟨rate, capacity, fun _ => none⟩

/-- `tryAcquire`. -/
def tryAcquire (t : RedisTokenBucket) (now : Nat) (key : Bytes) : RedisTokenBucket × Bool :=
  match t.store.script (cStr key) (percentF t.rate) (percentF t.capacity) now with
  | (store, allowed) => ({ t with store := store }, allowed)

/-- `removeKey`. -/
def removeKey (t : RedisTokenBucket) (key : Bytes) : RedisTokenBucket :=
  { t with store := t.store.del (cStr key) }

/-- The tokens that `tryAcquire` finds under a key of Redis. -/
def refilled (t : RedisTokenBucket) (now : Nat) (key : Bytes) : ℚ :=
  t.store.refilled key (percentF t.rate) (percentF t.capacity) now

theorem refilled_congr {t u : RedisTokenBucket} {now : Nat} {key : Bytes} (hrate : u.rate = t.rate)
    (hcapacity : u.capacity = t.capacity) (htokens : u.store.get now key = t.store.get now key)
    (htime : u.store.get now (timeKey key) = t.store.get now (timeKey key)) :
    u.refilled now key = t.refilled now key := by
  unfold refilled RedisStore.refilled
  rw [hrate, hcapacity, htokens, htime]

end RedisTokenBucket

/-! ## §2 Calls -/

/-- A call of a limiter. -/
inductive Call where
  | tryAcquire (now : Nat) (key : Bytes)
  | removeKey (now : Nat) (key : Bytes)
  deriving DecidableEq, Repr

def Call.now : Call → Nat
  | .tryAcquire now _ => now
  | .removeKey now _ => now

def Call.key : Call → Bytes
  | .tryAcquire _ key => key
  | .removeKey _ key => key

/-- The answers to a sequence of calls. -/
def RedisTokenBucket.answers : RedisTokenBucket → List Call → List Bool
  | _, [] => []
  | t, .tryAcquire now key :: calls =>
    (t.tryAcquire now key).2 :: answers (t.tryAcquire now key).1 calls
  | t, .removeKey _ key :: calls => answers (t.removeKey key) calls

def TokenBucket.answers : TokenBucket Bytes → List Call → List Bool
  | _, [] => []
  | t, .tryAcquire now key :: calls =>
    (t.tryAcquire now key).2 :: answers (t.tryAcquire now key).1 calls
  | t, .removeKey _ key :: calls => answers (t.removeKey key) calls

/-- Keys that do not meet in Redis. -/
structure Separate (keys : List Bytes) : Prop where
  inj : ∀ k ∈ keys, ∀ k' ∈ keys, cStr k = cStr k' → k = k'
  time : ∀ k ∈ keys, ∀ k' ∈ keys, cStr k ≠ timeKey (cStr k')

/-! ## §3 The simulation -/

/-- An idle bucket is full when its keys in Redis expire. -/
theorem TokenBucket.level_eq_capacity_of_idle {κ : Type*} {t : TokenBucket κ} {now later : ℚ}
    {key : κ} (hrate : 0 < t.rate) (hfull : t.capacity ≤ 60 * t.rate)
    (hnonneg : min t.capacity 0 ≤ t.level now key) (hgap : now + 60 ≤ later) :
    t.level later key = t.capacity := by
  have hgrowth : 60 * t.rate ≤ (later - now) * t.rate :=
    mul_le_mul_of_nonneg_right (le_sub_iff_add_le'.mpr hgap) hrate.le
  rw [level_later hrate.le ((le_add_of_nonneg_right (by decide)).trans hgap)]
  refine fill_eq_cap ?_
  rcases le_total t.capacity 0 with hcap | hcap
  · rw [min_eq_left hcap] at hnonneg
    linarith
  · rw [min_eq_right hcap] at hnonneg
    linarith

namespace RedisStore

variable (r : RedisStore) (now : Nat)

theorem get_setExpiring_self {now' : Nat} (key : Bytes) (value : ℚ) :
    (r.setExpiring now key value).get now' key = if now' < now + 60 then some value else none := by
  simp [get, setExpiring]

theorem get_setExpiring_of_ne {now' : Nat} {key key' : Bytes} (h : key' ≠ key) (value : ℚ) :
    (r.setExpiring now key value).get now' key' = r.get now' key' := by
  unfold get setExpiring
  rw [Function.update_of_ne h]

theorem get_del_self (key : Bytes) : (r.del key).get now key = none := by
  simp [get, del]

theorem get_del_of_ne {key key' : Bytes} (h : key' ≠ key) :
    (r.del key).get now key' = r.get now key' := by
  unfold get del
  rw [Function.update_of_ne h]

end RedisStore

theorem timeKey_ne (key : Bytes) : timeKey key ≠ key := by
  intro h
  have hlength := congrArg List.length h
  simp [timeKey, ascii] at hlength

theorem timeKey_injective {k k' : Bytes} (h : timeKey k = timeKey k') : k = k' :=
  List.append_cancel_right h

/-- From `now` on the two limiters find the same tokens under every key. -/
structure Simulates (keys : List Bytes) (now : Nat) (r : RedisTokenBucket) (t : TokenBucket Bytes) :
    Prop where
  rate : percentF r.rate = t.rate
  capacity : percentF r.capacity = t.capacity
  level : ∀ k ∈ keys, ∀ later, now ≤ later → r.refilled later (cStr k) = t.level later k
  /-- no bucket is overdrawn -/
  nonneg : ∀ k, min t.capacity 0 ≤ t.level now k
  /-- no call has been made in the future -/
  past : ∀ k ∈ keys, ∀ later last, now ≤ later →
    r.store.get later (timeKey (cStr k)) = some last → last ≤ later

namespace Simulates

variable {keys : List Bytes} {now now' : Nat} {r : RedisTokenBucket} {t : TokenBucket Bytes}

theorem new (keys : List Bytes) (now : Nat) (rate capacity : ℚ) :
    Simulates keys now (.new rate capacity) (.new (percentF rate) (percentF capacity)) where
  rate := rfl
  capacity := rfl
  level k _ later _ := by
    rw [TokenBucket.level_new]
    simp [RedisTokenBucket.refilled, RedisStore.refilled, RedisTokenBucket.new, RedisStore.get]
  nonneg k := by
    rw [TokenBucket.level_new]
    exact min_le_left _ _
  past k _ later last _ h := by
    simp [RedisTokenBucket.new, RedisStore.get] at h

variable (h : Simulates keys now r t)
include h

/-- Time passes. -/
theorem mono (hrate : 0 < t.rate) (hle : now ≤ now') : Simulates keys now' r t where
  rate := h.rate
  capacity := h.capacity
  level k hk later hlater := h.level k hk later (hle.trans hlater)
  nonneg k := (h.nonneg k).trans (TokenBucket.level_le_later hrate.le (Nat.cast_le.mpr hle) k)
  past k hk later last hlater := h.past k hk later last (hle.trans hlater)

theorem answer {key : Bytes} (hkey : key ∈ keys) :
    (r.tryAcquire now key).2 = (t.tryAcquire now key).2 := by
  rw [TokenBucket.tryAcquire_snd, Bool.eq_iff_iff, TokenBucket.admits_iff,
    ← h.level key hkey now (le_refl now)]
  simp [RedisTokenBucket.tryAcquire, RedisStore.script, RedisTokenBucket.refilled]

/-- The script writes back what `TokenBucket` keeps. -/
theorem tryAcquire_fst {key : Bytes} (hkey : key ∈ keys) :
    (r.tryAcquire now key).1 = { r with
      store := (r.store.setExpiring now (cStr key) ((t.tryAcquire now key).1.level now key)).setExpiring
        now (timeKey (cStr key)) now } := by
  have htokens := h.level key hkey now (le_refl now)
  have hadmits : decide (1 ≤ r.refilled now (cStr key)) = t.admits now key := by
    rw [Bool.eq_iff_iff, TokenBucket.admits_iff, decide_eq_true_iff, htokens]
  unfold RedisTokenBucket.refilled at htokens hadmits
  unfold RedisTokenBucket.tryAcquire RedisStore.script
  dsimp only
  rw [hadmits, htokens, TokenBucket.level_tryAcquire_self]
  split_ifs
  · rfl
  · rw [sub_zero]

theorem tryAcquire (hrate : 0 < t.rate) (hfull : t.capacity ≤ 60 * t.rate)
    (hkeys : Separate keys) {key : Bytes} (hkey : key ∈ keys) :
    Simulates keys now (r.tryAcquire now key).1 (t.tryAcquire now key).1 := by
  have hnonneg : ∀ k, min (t.tryAcquire now key).1.capacity 0 ≤
      (t.tryAcquire now key).1.level now k := by
    rw [TokenBucket.tryAcquire_capacity]
    exact TokenBucket.le_level_tryAcquire (min_le_right _ _) key h.nonneg
  rw [h.tryAcquire_fst hkey]
  refine ⟨?_, ?_, fun k hk later hlater => ?_, hnonneg, fun k hk later last hlater hlast => ?_⟩
  · exact h.rate.trans (t.tryAcquire_rate now key).symm
  · exact h.capacity.trans (t.tryAcquire_capacity now key).symm
  · by_cases hself : k = key
    · subst hself
      have htokens : ∀ value, ((r.store.setExpiring now (cStr k) value).setExpiring now
          (timeKey (cStr k)) now).get later (cStr k) =
          if later < now + 60 then some value else none := fun value => by
        rw [RedisStore.get_setExpiring_of_ne _ _ (timeKey_ne (cStr k)).symm,
          RedisStore.get_setExpiring_self]
      unfold RedisTokenBucket.refilled RedisStore.refilled
      simp only [htokens, RedisStore.get_setExpiring_self, h.rate, h.capacity]
      by_cases halive : later < now + 60
      · have hle : (now : ℚ) ≤ later := Nat.cast_le.mpr hlater
        have hlevel := TokenBucket.level_later (t := (t.tryAcquire now k).1)
          (by rw [TokenBucket.tryAcquire_rate]; exact hrate.le) hle k
        rw [TokenBucket.tryAcquire_rate, TokenBucket.tryAcquire_capacity] at hlevel
        rw [if_pos halive, if_pos halive, hlevel]
        rfl
      -- both keys have expired
      · rw [if_neg halive, if_neg halive, Option.getD_none, Option.getD_none, sub_self, zero_mul,
          add_zero, min_self]
        refine ((TokenBucket.level_eq_capacity_of_idle ?_ ?_ (hnonneg k) ?_).trans
          (t.tryAcquire_capacity now k)).symm
        · rw [TokenBucket.tryAcquire_rate]
          exact hrate
        · rw [TokenBucket.tryAcquire_rate, TokenBucket.tryAcquire_capacity]
          exact hfull
        · exact_mod_cast Nat.le_of_not_lt halive
    · rw [TokenBucket.level_tryAcquire_of_ne t now later hself, ← h.level k hk later hlater]
      refine RedisTokenBucket.refilled_congr rfl rfl ?_ ?_
      · rw [RedisStore.get_setExpiring_of_ne _ _ (hkeys.time k hk key hkey),
          RedisStore.get_setExpiring_of_ne _ _ fun heq => hself (hkeys.inj k hk key hkey heq)]
      · rw [RedisStore.get_setExpiring_of_ne _ _ fun heq =>
            hself (hkeys.inj k hk key hkey (timeKey_injective heq)),
          RedisStore.get_setExpiring_of_ne _ _ (hkeys.time key hkey k hk).symm]
  · by_cases hself : cStr k = cStr key
    · rw [hself, RedisStore.get_setExpiring_self] at hlast
      split_ifs at hlast
      cases hlast
      exact_mod_cast hlater
    · rw [RedisStore.get_setExpiring_of_ne _ _ fun heq => hself (timeKey_injective heq),
        RedisStore.get_setExpiring_of_ne _ _ (hkeys.time key hkey k hk).symm] at hlast
      exact h.past k hk later last hlater hlast

/-- The time that `removeKey` leaves behind does no harm: the bucket is full whatever it says. -/
theorem removeKey (hrate : 0 < t.rate) (hkeys : Separate keys) {key : Bytes} (hkey : key ∈ keys) :
    Simulates keys now (r.removeKey key) (t.removeKey key) where
  rate := h.rate
  capacity := h.capacity
  level k hk later hlater := by
    by_cases hself : k = key
    · subst hself
      rw [TokenBucket.level_removeKey]
      unfold RedisTokenBucket.refilled RedisStore.refilled RedisTokenBucket.removeKey
      simp only [RedisStore.get_del_self, RedisStore.get_del_of_ne _ _ (timeKey_ne (cStr k)),
        Option.getD_none]
      rw [h.capacity]
      refine min_eq_left (le_add_of_nonneg_right (mul_nonneg (sub_nonneg.mpr ?_) ?_))
      · cases hlast : r.store.get later (timeKey (cStr k)) with
        | none => exact le_refl _
        | some last => exact h.past k hk later last hlater hlast
      · rw [h.rate]
        exact hrate.le
    · rw [TokenBucket.level_removeKey_of_ne t later hself, ← h.level k hk later hlater]
      refine RedisTokenBucket.refilled_congr rfl rfl ?_ ?_
      · exact RedisStore.get_del_of_ne _ _ fun heq => hself (hkeys.inj k hk key hkey heq)
      · exact RedisStore.get_del_of_ne _ _ (hkeys.time key hkey k hk).symm
  nonneg k := by
    by_cases hself : k = key
    · subst hself
      rw [TokenBucket.level_removeKey]
      exact min_le_left _ _
    · rw [TokenBucket.level_removeKey_of_ne t now hself]
      exact h.nonneg k
  past k hk later last hlater hlast := by
    rw [RedisTokenBucket.removeKey, RedisStore.get_del_of_ne _ _ (hkeys.time key hkey k hk).symm]
      at hlast
    exact h.past k hk later last hlater hlast

end Simulates

/-! ## §4 Sequences of calls -/

theorem answers_eq {keys : List Bytes} (hkeys : Separate keys) {now : Nat} {r : RedisTokenBucket}
    {t : TokenBucket Bytes} {calls : List Call} (h : Simulates keys now r t) (hrate : 0 < t.rate)
    (hfull : t.capacity ≤ 60 * t.rate) (hmem : ∀ c ∈ calls, c.key ∈ keys)
    (htimes : (now :: calls.map Call.now).Pairwise (· ≤ ·)) : r.answers calls = t.answers calls := by
  induction calls generalizing now r t with
  | nil => rfl
  | cons c calls ih =>
    rw [List.map_cons, List.pairwise_cons] at htimes
    have hc := h.mono hrate (htimes.1 c.now List.mem_cons_self)
    obtain ⟨hkey, hrest⟩ := List.forall_mem_cons.mp hmem
    cases c with
    | tryAcquire now' key =>
      have hanswer : (r.tryAcquire now' key).2 = (t.tryAcquire now' key).2 := hc.answer hkey
      rw [RedisTokenBucket.answers, TokenBucket.answers, hanswer]
      refine congrArg _ (ih (hc.tryAcquire hrate hfull hkeys hkey) ?_ ?_ hrest htimes.2)
      · rw [TokenBucket.tryAcquire_rate]
        exact hrate
      · rw [TokenBucket.tryAcquire_rate, TokenBucket.tryAcquire_capacity]
        exact hfull
    | removeKey now' key =>
      rw [RedisTokenBucket.answers, TokenBucket.answers]
      exact ih (hc.removeKey hrate hkeys hkey) hrate hfull hrest htimes.2

/-- The limiter in Redis is the other one at the rate and capacity that the texts say. -/
theorem answers_percentF (rate capacity : ℚ) (hrate : 0 < percentF rate)
    (hfull : percentF capacity ≤ 60 * percentF rate) (calls : List Call)
    (htimes : (calls.map Call.now).Pairwise (· ≤ ·)) (hkeys : Separate (calls.map Call.key)) :
    (RedisTokenBucket.new rate capacity).answers calls =
      (TokenBucket.new (percentF rate) (percentF capacity) : TokenBucket Bytes).answers calls := by
  refine answers_eq hkeys (.new _ 0 rate capacity) hrate hfull
    (fun c hc => List.mem_map_of_mem hc) ?_
  exact List.pairwise_cons.mpr ⟨fun _ _ => Nat.zero_le _, htimes⟩

/-- **The two limiters agree** on every sequence of calls at non-decreasing times whose keys do not
meet in Redis. -/
theorem limiters_agree (rate capacity : ℚ) (hrate : 0 < rate) (hfull : capacity ≤ 60 * rate)
    (hrateText : SixDecimals rate) (hcapacityText : SixDecimals capacity)
    (calls : List Call) (htimes : (calls.map Call.now).Pairwise (· ≤ ·))
    (hkeys : Separate (calls.map Call.key)) :
    (RedisTokenBucket.new rate capacity).answers calls =
      (TokenBucket.new rate capacity : TokenBucket Bytes).answers calls := by
  have hr := hrateText.percentF_eq
  have hc := hcapacityText.percentF_eq
  have h := answers_percentF rate capacity (by rw [hr]; exact hrate)
    (by rw [hr, hc]; exact hfull) calls htimes hkeys
  rwa [hr, hc] at h

/-- A bucket of two tokens runs dry, is removed, and expires. -/
def dryAndBack : List Call :=
  [.tryAcquire 5 (ascii "fd:1"), .tryAcquire 5 (ascii "fd:1"), .tryAcquire 5 (ascii "fd:1"),
    .tryAcquire 7 (ascii "fd:2"), .removeKey 7 (ascii "fd:1"), .tryAcquire 7 (ascii "fd:1"),
    .tryAcquire 70 (ascii "fd:2")]

instance (keys : List Bytes) : Decidable (Separate keys) :=
  decidable_of_iff ((∀ k ∈ keys, ∀ k' ∈ keys, cStr k = cStr k' → k = k') ∧
    ∀ k ∈ keys, ∀ k' ∈ keys, cStr k ≠ timeKey (cStr k'))
    ⟨fun ⟨hinj, htime⟩ => ⟨hinj, htime⟩, fun h => ⟨h.inj, h.time⟩⟩

theorem limiters_agree_dryAndBack :
    (RedisTokenBucket.new (1 / 10) 2).answers dryAndBack =
      (TokenBucket.new (1 / 10) 2 : TokenBucket Bytes).answers dryAndBack :=
  limiters_agree (1 / 10) 2 (by decide +kernel) (by decide +kernel) ⟨100000, by norm_num⟩
    ⟨2000000, by norm_num⟩ dryAndBack (by decide) (by decide)

/-- Three calls in one second, on the keys `a` and `a:t`. -/
def suffixedKey : List Call :=
  [.tryAcquire 100 (ascii "a"), .tryAcquire 100 (ascii "a:t"), .tryAcquire 100 (ascii "a")]

/-- Two calls with three seconds in between. -/
def threeSecondsLater : List Call := [.tryAcquire 100 (ascii "a"), .tryAcquire 103 (ascii "a")]

/-- With one token a second, `a` is empty for the third call; in Redis the second call has put its
tokens where the time of `a` was.  With a third of a token a second, three seconds are enough for
a token, but not at the rate `0.333333` that the script is given. -/
theorem limiters_disagree :
    ((TokenBucket.new 1 1 : TokenBucket Bytes).answers suffixedKey = [true, true, false] ∧
      (RedisTokenBucket.new 1 1).answers suffixedKey = [true, true, true]) ∧
    (TokenBucket.new (1 / 3) 1 : TokenBucket Bytes).answers threeSecondsLater = [true, true] ∧
      (RedisTokenBucket.new (1 / 3) 1).answers threeSecondsLater = [true, false] := by
  decide +kernel

end EchoNet.RateLimit
