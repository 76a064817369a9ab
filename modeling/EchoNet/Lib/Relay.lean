import EchoNet.Lib.Machine
import Mathlib.Logic.Function.Basic

/-!
# Relays

What a relay between clients and servers is for: a client makes a request, and later the request
is settled, once.  It is answered, or the client is told that nobody has answered in time, or it
is dropped because there is nobody left to tell.  How a request finds its answer (tables, keys,
threads) is not part of the picture.

- `Act`: a request is made, or one is settled, both at once and on their own;
- `Sound.run`: a request is settled at most once, and its client is told exactly what it was
  settled with.
-/

namespace EchoNet.Lib

/-- What became of a request. -/
inductive Outcome (ρ : Type*) where
  | answered (reply : ρ)
  | timedOut
  | dropped
  deriving DecidableEq, Repr

/-- What the client is told: a reply, that there is none, or nothing at all. -/
def Outcome.told {ρ : Type*} : Outcome ρ → Option (Option ρ)
  | .answered reply => some (some reply)
  | .timedOut => some none
  | .dropped => none

/-- What a client is told: for which of the requests, and the reply, if there is one. -/
structure Told (γ ρ : Type*) where
  client : γ
  request : Nat
  reply : Option ρ
  deriving DecidableEq, Repr

/-- The requests in the order in which they were made, each known by its client, what became of
each of them, and what the clients have been told. -/
structure Relay (γ ρ : Type*) where
  requests : List γ
  outcome : Nat → Option (Outcome ρ)
  delivered : List (Told γ ρ)

namespace Relay

variable {γ ρ : Type*}

def empty : Relay γ ρ := ⟨[], fun _ => none, []⟩

inductive Act (γ ρ : Type*) where
  | request (client : γ)
  | settle (request : Nat) (outcome : Outcome ρ)

/-- The request has been made and is not settled. -/
def Open (r : Relay γ ρ) (n : Nat) : Prop := n < r.requests.length ∧ r.outcome n = none

instance (r : Relay γ ρ) (n : Nat) : Decidable (r.Open n) :=
  decidable_of_iff (n < r.requests.length ∧ (r.outcome n).isNone)
    (by rw [Option.isNone_iff_eq_none, Open])

/-- What the client of request `n` is told when the request is settled. -/
def message (r : Relay γ ρ) (n : Nat) (o : Outcome ρ) : Option (Told γ ρ) :=
  r.requests[n]?.bind fun client => o.told.map fun reply => ⟨client, n, reply⟩

/-- Request `n` is settled. -/
def close (r : Relay γ ρ) (n : Nat) (o : Outcome ρ) : Relay γ ρ :=
  { r with
    outcome := Function.update r.outcome n (some o)
    delivered := r.delivered ++ (r.message n o).toList }

def step (r : Relay γ ρ) : Act γ ρ → Option (Relay γ ρ)
  | .request client => some { r with requests := r.requests ++ [client] }
  | .settle n o => if r.Open n then some (r.close n o) else none

section

variable {r : Relay γ ρ} {n m : Nat} {o : Outcome ρ}

@[simp] theorem close_requests : (r.close n o).requests = r.requests := rfl

theorem close_delivered : (r.close n o).delivered = r.delivered ++ (r.message n o).toList := rfl

@[simp] theorem message_dropped : r.message n .dropped = none := by
  unfold message
  cases r.requests[n]? <;> rfl

theorem message_eq_some_iff {t : Told γ ρ} : r.message n o = some t ↔
    t.request = n ∧ r.requests[n]? = some t.client ∧ o.told = some t.reply := by
  rw [message, Option.bind_eq_some_iff]
  constructor
  · rintro ⟨client, hclient, ht⟩
    obtain ⟨reply, hreply, rfl⟩ := Option.map_eq_some_iff.mp ht
    exact ⟨rfl, hclient, hreply⟩
  · rintro ⟨rfl, hclient, hreply⟩
    exact ⟨t.client, hclient, by rw [hreply]; rfl⟩

@[simp] theorem close_outcome_self : (r.close n o).outcome n = some o :=
  Function.update_self ..

@[simp] theorem close_outcome_of_ne (h : m ≠ n) : (r.close n o).outcome m = r.outcome m :=
  Function.update_of_ne h ..

theorem step_settle (h : r.Open n) : r.step (.settle n o) = some (r.close n o) := if_pos h

end

/-- Several requests are dropped, one after the other. -/
theorem exists_run_dropped {ns : List Nat} {r : Relay γ ρ} (hopen : ∀ n ∈ ns, r.Open n)
    (hnodup : ns.Nodup) :
    ∃ u, run Relay.step r (ns.map fun n => .settle n .dropped) = some u ∧
      u.requests = r.requests ∧ u.delivered = r.delivered ∧
      ∀ n, u.outcome n = if n ∈ ns then some .dropped else r.outcome n := by
  induction ns generalizing r with
  | nil => exact ⟨r, rfl, rfl, rfl, fun n => (if_neg List.not_mem_nil).symm⟩
  | cons m ns ih =>
    obtain ⟨hm, hrest⟩ := List.nodup_cons.mp hnodup
    have hother : ∀ n ∈ ns, n ≠ m := fun n hn hnm => hm (hnm ▸ hn)
    have hstill : ∀ n ∈ ns, (r.close m .dropped).Open n := by
      intro n hn
      have hopen' := hopen n (List.mem_cons_of_mem _ hn)
      exact ⟨hopen'.1, (close_outcome_of_ne (hother n hn)).trans hopen'.2⟩
    obtain ⟨u, hu, hrequests, hdelivered, houtcome⟩ := ih hstill hrest
    refine ⟨u, run_cons_eq_some.mpr ⟨_, step_settle (hopen m List.mem_cons_self), hu⟩, hrequests,
      hdelivered.trans ?_, fun n => ?_⟩
    · rw [close_delivered, message_dropped]
      exact List.append_nil _
    · rw [houtcome n]
      by_cases hn : n ∈ ns
      · rw [if_pos hn, if_pos (List.mem_cons_of_mem _ hn)]
      · rw [if_neg hn]
        by_cases hnm : n = m
        · rw [hnm, if_pos List.mem_cons_self, close_outcome_self]
        · rw [if_neg fun hmem => (List.mem_cons.mp hmem).elim hnm hn, close_outcome_of_ne hnm]

/-- What holds of a relay however its requests have been settled. -/
structure Sound (r : Relay γ ρ) : Prop where
  made : ∀ n, r.outcome n ≠ none → n < r.requests.length
  /-- a client is told what its request was settled with, and nobody is told anything else -/
  told : ∀ t, t ∈ r.delivered ↔ r.requests[t.request]? = some t.client ∧
    (r.outcome t.request).bind Outcome.told = some t.reply
  /-- and only once -/
  once : (r.delivered.map Told.request).Nodup

theorem Sound.empty : Sound (Relay.empty : Relay γ ρ) where
  made := nofun
  told := by simp [Relay.empty]
  once := List.nodup_nil

theorem Sound.request {r : Relay γ ρ} (h : Sound r) (client : γ) :
    Sound { r with requests := r.requests ++ [client] } where
  made := fun n hn => by
    rw [List.length_append]
    exact Nat.lt_add_right _ (h.made n hn)
  told := fun t => by
    rw [h.told t]
    apply and_congr_left
    intro htold
    -- what has been settled is one of the old requests
    have hlt := h.made t.request fun hnone => by simp [hnone] at htold
    rw [List.getElem?_append_left hlt]
  once := h.once

theorem Sound.close {r : Relay γ ρ} (h : Sound r) {n : Nat} (hn : r.Open n) (o : Outcome ρ) :
    Sound (r.close n o) := by
  have hfresh : ∀ t ∈ r.delivered, t.request ≠ n := by
    intro t ht htn
    have htold := ((h.told t).mp ht).2
    rw [htn, hn.2] at htold
    cases htold
  refine ⟨fun m hm => ?_, fun t => ?_, ?_⟩
  · by_cases hmn : m = n
    · exact hmn ▸ hn.1
    · rw [close_outcome_of_ne hmn] at hm
      exact h.made m hm
  · rw [close_delivered, List.mem_append, Option.mem_toList, message_eq_some_iff, close_requests]
    by_cases htn : t.request = n
    · rw [htn, close_outcome_self, Option.bind_some]
      constructor
      · intro ht
        cases ht with
        | inl ht => exact absurd htn (hfresh t ht)
        | inr ht => exact ht.2
      · exact fun ht => Or.inr ⟨rfl, ht⟩
    · rw [close_outcome_of_ne htn, ← h.told t]
      exact or_iff_left fun ht => htn ht.1
  · rw [close_delivered, List.map_append]
    refine List.nodup_append.mpr ⟨h.once, ?_, fun m hm k hk hmk => ?_⟩
    · cases r.message n o <;> simp
    · obtain ⟨p, hp, rfl⟩ := List.mem_map.mp hm
      obtain ⟨q, hq, rfl⟩ := List.mem_map.mp hk
      have hqn := (message_eq_some_iff.mp (Option.mem_toList.mp hq)).1
      exact hfresh p hp (hmk.trans hqn)

theorem Sound.step {r u : Relay γ ρ} {a : Act γ ρ} (h : Sound r) (hstep : r.step a = some u) :
    Sound u := by
  cases a with
  | request client =>
    cases hstep
    exact h.request client
  | settle n o =>
    simp only [Relay.step] at hstep
    split_ifs at hstep with hn
    cases hstep
    exact h.close hn o

/-- Every run of a relay is sound. -/
theorem Sound.run {acts : List (Act γ ρ)} {r u : Relay γ ρ} (h : Sound r)
    (hrun : run Relay.step r acts = some u) : Sound u :=
  run_invariant (fun _ _ _ h hstep => h.step hstep) h hrun

end Relay

end EchoNet.Lib
