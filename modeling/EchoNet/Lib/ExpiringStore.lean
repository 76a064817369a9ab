import Mathlib.Data.List.AList

/-!
# Stores Whose Entries Expire

A store of keys and values in which each entry has a time from which on it is not there any more,
and its keys are listed and its values are read at a time.

- `get_eq_some`: what is there at a time;
- `mem_liveKeys`: the keys that are listed are those that have a value.
-/

namespace EchoNet.Lib

/-- A value, and from when on it is gone. -/
structure Expiring (ν : Type*) where
  value : ν
  expires : Nat
  deriving DecidableEq, Repr

abbrev ExpiringStore (κ ν : Type*) := AList fun _ : κ => Expiring ν

namespace ExpiringStore

variable {κ ν : Type*} [DecidableEq κ] {s : ExpiringStore κ ν} {now ttl : Nat} {k k' : κ}
  {v : ν}

/-- The value of a key at a time. -/
def get (s : ExpiringStore κ ν) (now : Nat) (k : κ) : Option ν :=
  (s.lookup k).bind fun e => if now < e.expires then some e.value else none

/-- The key gets a value that stays for `ttl`. -/
def set (s : ExpiringStore κ ν) (now ttl : Nat) (k : κ) (v : ν) : ExpiringStore κ ν :=
  s.insert k ⟨v, now + ttl⟩

/-- The keys that have a value. -/
def liveKeys (s : ExpiringStore κ ν) (now : Nat) : List κ :=
  s.keys.filter fun k => (s.get now k).isSome

theorem get_eq_some : s.get now k = some v ↔
    ∃ e, s.lookup k = some e ∧ now < e.expires ∧ e.value = v := by
  unfold get
  rw [Option.bind_eq_some_iff]
  refine exists_congr fun e => and_congr_right fun _ => ?_
  by_cases h : now < e.expires
  · rw [if_pos h, Option.some.injEq]
    exact (and_iff_right h).symm
  · rw [if_neg h]
    exact iff_of_false nofun fun hv => h hv.1

@[simp] theorem lookup_set : (s.set now ttl k v).lookup k = some ⟨v, now + ttl⟩ :=
  AList.lookup_insert s

@[simp] theorem lookup_set_of_ne (h : k' ≠ k) : (s.set now ttl k v).lookup k' = s.lookup k' :=
  AList.lookup_insert_ne h

theorem mem_liveKeys : k ∈ s.liveKeys now ↔ ∃ v, s.get now k = some v := by
  rw [liveKeys, List.mem_filter, Option.isSome_iff_exists]
  refine and_iff_right_of_imp ?_
  rintro ⟨v, hv⟩
  obtain ⟨e, hlook, -⟩ := get_eq_some.mp hv
  exact AList.lookup_isSome.mp (Option.isSome_of_eq_some hlook)

theorem nodup_liveKeys : (s.liveKeys now).Nodup := (AList.keys_nodup s).filter _

end ExpiringStore

end EchoNet.Lib
