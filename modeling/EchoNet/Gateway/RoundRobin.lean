import EchoNet.Gateway.Machine
import EchoNet.Lib.Turns

/-!
# Round Robin

`pick_backend` probes slots from `rr_index` on until it finds a healthy one.  The healthy slots,
in cyclic order from `rr_index`, take turns: a call gives the first one its turn and leaves
`rr_index` behind it, whatever it skipped before.  `rr_index` counts all slots that were ever
probed; what is said here holds until it wraps.
-/

namespace EchoNet.Gateway

open EchoNet.Lib

/-! ## §1 The loop -/

/-- `backends[idx].healthy`. -/
def healthyAt (backends : List BackendEntry) (idx : Nat) : Bool :=
  (backends[idx]?.map BackendEntry.healthy).getD false

/-- How many slots `pickLoop` probes. -/
def slotsProbed (backends : List BackendEntry) (rr : UInt64) : Nat → Nat
  | 0 => 0
  | tries + 1 =>
    if healthyAt backends (rr.toNat % backends.length) then 1
    else slotsProbed backends (rr + 1) tries + 1

/-- The slots from `rr` on, as the loop runs through them. -/
def slots (n rr tries : Nat) : List Nat := (List.range' rr tries).map (· % n)

variable {backends : List BackendEntry} {rr : UInt64} {tries : Nat}

theorem slots_succ (n rr tries : Nat) :
    slots n rr (tries + 1) = rr % n :: slots n (rr + 1) tries := rfl

/-- As many slots as there are backends go round the vector once. -/
theorem slots_eq_rotate {n : Nat} (rr : Nat) : slots n rr n = (List.range n).rotate rr := by
  apply List.ext_getElem
  · simp [slots]
  · intro i hi _
    simp [slots, List.getElem_rotate, Nat.add_comm]

theorem pickLoop_stop (tries : Nat)
    (h : healthyAt backends (rr.toNat % backends.length) = true) :
    pickLoop backends rr (tries + 1) = (rr + 1, some (rr.toNat % backends.length)) ∧
      slotsProbed backends rr (tries + 1) = 1 := ⟨if_pos h, if_pos h⟩

theorem pickLoop_skip (tries : Nat)
    (h : healthyAt backends (rr.toNat % backends.length) = false) :
    pickLoop backends rr (tries + 1) = pickLoop backends (rr + 1) tries ∧
      slotsProbed backends rr (tries + 1) = slotsProbed backends (rr + 1) tries + 1 :=
  ⟨if_neg (Bool.eq_false_iff.mp h), if_neg (Bool.eq_false_iff.mp h)⟩

/-- The loop stops at the first healthy slot, or finds none. -/
theorem pickLoop_cases (hprobed : rr.toNat + slotsProbed backends rr tries < 2 ^ 64) :
    (pickLoop backends rr tries = (rr + UInt64.ofNat (slotsProbed backends rr tries), none) ∧
      ∀ idx ∈ slots backends.length rr.toNat tries, healthyAt backends idx = false) ∨
    ∃ skipped idx rest,
      pickLoop backends rr tries =
        (rr + UInt64.ofNat (slotsProbed backends rr tries), some idx) ∧
      slotsProbed backends rr tries = skipped.length + 1 ∧
      slots backends.length rr.toNat tries = skipped ++ idx :: rest ∧
      (∀ i ∈ skipped, healthyAt backends i = false) ∧ healthyAt backends idx = true := by
  induction tries generalizing rr with
  | zero => exact Or.inl ⟨by simp [pickLoop, slotsProbed], by simp [slots]⟩
  | succ tries ih =>
    rw [slots_succ]
    cases hhealthy : healthyAt backends (rr.toNat % backends.length) with
    | true =>
      obtain ⟨hloop, hcount⟩ := pickLoop_stop tries hhealthy
      rw [hloop, hcount]
      exact Or.inr ⟨[], _, _, rfl, rfl, rfl, by simp, hhealthy⟩
    | false =>
      obtain ⟨hloop, hcount⟩ := pickLoop_skip tries hhealthy
      rw [hcount] at hprobed
      have hnext : (rr + 1).toNat = rr.toNat + 1 := by
        rw [UInt64.toNat_add, UInt64.toNat_one, Nat.mod_eq_of_lt (by omega)]
      have hrest := @ih (rr + 1) (by omega)
      rw [hloop, hcount, UInt64.ofNat_add, UInt64.add_comm (UInt64.ofNat _) (UInt64.ofNat 1),
        ← UInt64.add_assoc]
      rw [hnext] at hrest
      rcases hrest with ⟨hnone, hall⟩ | ⟨skipped, idx, rest, hsome, hlen, hslots, hskipped, hidx⟩
      · exact Or.inl ⟨hnone, List.forall_mem_cons.mpr ⟨hhealthy, hall⟩⟩
      · refine Or.inr ⟨rr.toNat % backends.length :: skipped, idx, rest, hsome, ?_, ?_, ?_, hidx⟩
        · rw [hlen, List.length_cons]
        · rw [hslots, List.cons_append]
        · exact List.forall_mem_cons.mpr ⟨hhealthy, hskipped⟩

/-! ## §2 The order of the turns -/

/-- The healthy slots, in cyclic order from `rr_index` on. -/
def World.turnOrder (w : World) : List Nat :=
  ((List.range w.backends.length).rotate w.rrIndex.toNat).filter (healthyAt w.backends)

/-- `request_count++` at each of the slots. -/
def countRequests (backends : List BackendEntry) (picked : List Nat) : List BackendEntry :=
  backends.mapIdx fun idx e => { e with requestCount := e.requestCount + picked.count idx }

theorem nodup_turnOrder (w : World) : w.turnOrder.Nodup :=
  (List.nodup_rotate.mpr List.nodup_range).filter _

theorem mem_turnOrder {w : World} {idx : Nat} :
    idx ∈ w.turnOrder ↔ healthyAt w.backends idx = true := by
  rw [World.turnOrder, List.mem_filter, List.mem_rotate, List.mem_range]
  refine ⟨And.right, fun h => ⟨?_, h⟩⟩
  by_contra hlt
  simp [healthyAt, List.getElem?_eq_none (not_lt.mp hlt)] at h

@[simp] theorem countRequests_nil (backends : List BackendEntry) :
    countRequests backends [] = backends := by
  apply List.ext_getElem?
  intro i
  simp [countRequests, List.getElem?_mapIdx]

theorem countRequests_singleton (backends : List BackendEntry) (idx : Nat) :
    countRequests backends [idx] =
      backends.modify idx fun e => { e with requestCount := e.requestCount + 1 } := by
  apply List.ext_getElem?
  intro i
  simp only [countRequests, List.getElem?_mapIdx, List.getElem?_modify]
  cases backends[i]? with
  | none => rfl
  | some e => by_cases hi : idx = i <;> simp [hi]

theorem countRequests_append (backends : List BackendEntry) (picked picked' : List Nat) :
    countRequests (countRequests backends picked) picked' =
      countRequests backends (picked ++ picked') := by
  apply List.ext_getElem?
  intro i
  simp only [countRequests, List.getElem?_mapIdx]
  cases backends[i]? with
  | none => rfl
  | some e => simp [Nat.add_assoc]

theorem length_countRequests (backends : List BackendEntry) (picked : List Nat) :
    (countRequests backends picked).length = backends.length := by
  simp [countRequests]

theorem healthyAt_countRequests (backends : List BackendEntry) (picked : List Nat) (idx : Nat) :
    healthyAt (countRequests backends picked) idx = healthyAt backends idx := by
  simp only [healthyAt, countRequests, List.getElem?_mapIdx, Option.map_map]
  rfl

/-! ## §3 A call -/

namespace World

/-- A call of `pick_backend` probes these many slots. -/
def pickProbes (w : World) : Nat := slotsProbed w.backends w.rrIndex w.backends.length

/-- What a call leaves. -/
def picked (w : World) (idxs : List Nat) (probes : Nat) : World :=
  { w with
      rrIndex := w.rrIndex + UInt64.ofNat probes
      backends := countRequests w.backends idxs }

/-- The first slot of the order has its turn, and is the last one then. -/
theorem turnOrder_picked {w : World} {skipped rest : List Nat} {idx : Nat}
    (hround : w.rrIndex.toNat + (skipped.length + 1) < 2 ^ 64)
    (hslots : slots w.backends.length w.rrIndex.toNat w.backends.length = skipped ++ idx :: rest)
    (hskipped : ∀ i ∈ skipped, healthyAt w.backends i = false)
    (hidx : healthyAt w.backends idx = true) :
    w.turnOrder = idx :: rest.filter (healthyAt w.backends) ∧
      (w.picked [idx] (skipped.length + 1)).turnOrder =
        rest.filter (healthyAt w.backends) ++ [idx] := by
  have hnone : skipped.filter (healthyAt w.backends) = [] :=
    List.filter_eq_nil_iff.mpr fun i hi => Bool.eq_false_iff.mp (hskipped i hi)
  rw [slots_eq_rotate] at hslots
  constructor
  · rw [turnOrder, hslots, List.filter_append, hnone, List.nil_append,
      List.filter_cons_of_pos hidx]
  · have hcounter : (w.rrIndex + UInt64.ofNat (skipped.length + 1)).toNat =
        w.rrIndex.toNat + (skipped ++ [idx]).length := by
      rw [UInt64.toNat_add, UInt64.toNat_ofNat', Nat.add_mod_mod, Nat.mod_eq_of_lt hround,
        List.length_append, List.length_singleton]
    have hsplit : skipped ++ idx :: rest = (skipped ++ [idx]) ++ rest := by simp
    rw [turnOrder, picked, length_countRequests, hcounter, ← List.rotate_rotate, hslots, hsplit,
      List.rotate_append_length_eq, funext (healthyAt_countRequests w.backends [idx]),
      List.filter_append, List.filter_append, hnone, List.nil_append,
      List.filter_cons_of_pos hidx, List.filter_nil]

/-- The guard for an empty vector changes nothing: the loop has no slot to probe there. -/
theorem pickBackend_eq (w : World) :
    w.pickBackend =
      match pickLoop w.backends w.rrIndex w.backends.length with
      | (rr, none) => ({ w with rrIndex := rr }, none)
      | (rr, some idx) =>
        ({ w with
            rrIndex := rr
            backends := w.backends.modify idx fun e =>
              { e with requestCount := e.requestCount + 1 } },
          w.backends[idx]?.map BackendEntry.conn) := by
  rw [pickBackend]
  split_ifs with hempty
  · have hloop : pickLoop w.backends w.rrIndex w.backends.length = (w.rrIndex, none) := by
      rw [List.isEmpty_iff.mp hempty]
      rfl
    rw [hloop]
  · rfl

/-- A call of `pick_backend` gives the first slot of the order its turn. -/
theorem pickBackend_spec {w : World} (hprobed : w.rrIndex.toNat + w.pickProbes < 2 ^ 64) :
    (w.turnOrder = [] ∧ w.pickBackend = (w.picked [] w.pickProbes, none)) ∨
    ∃ idx order, w.turnOrder = idx :: order ∧
      w.pickBackend =
        (w.picked [idx] w.pickProbes, w.backends[idx]?.map BackendEntry.conn) ∧
      (w.picked [idx] w.pickProbes).turnOrder = order ++ [idx] := by
  rcases pickLoop_cases hprobed with ⟨hloop, hall⟩ |
    ⟨skipped, idx, rest, hloop, hcount, hslots, hskipped, hidx⟩
  · left
    rw [slots_eq_rotate] at hall
    refine ⟨List.filter_eq_nil_iff.mpr fun i hi => Bool.eq_false_iff.mp (hall i hi), ?_⟩
    rw [pickBackend_eq, hloop, picked, countRequests_nil]
    rfl
  · right
    rw [pickProbes, hcount] at hprobed ⊢
    obtain ⟨horder, hnext⟩ := turnOrder_picked hprobed hslots hskipped hidx
    refine ⟨idx, _, horder, ?_, hnext⟩
    rw [pickBackend_eq, hloop, hcount, picked, countRequests_singleton]

/-! ## §4 Consecutive calls -/

/-- `k` calls of `pick_backend`, with their answers. -/
def picks (w : World) : Nat → World × List (Option ConnId)
  | 0 => (w, [])
  | k + 1 =>
    let (w', c) := w.pickBackend
    let (w'', cs) := w'.picks k
    (w'', c :: cs)

/-- They probe these many slots. -/
def picksProbes (w : World) : Nat → Nat
  | 0 => 0
  | k + 1 => w.pickProbes + w.pickBackend.1.picksProbes k

theorem picks_succ {w w' : World} {c : Option ConnId} (h : w.pickBackend = (w', c)) (k : Nat) :
    w.picks (k + 1) = ((w'.picks k).1, c :: (w'.picks k).2) ∧
      w.picksProbes (k + 1) = w.pickProbes + w'.picksProbes k := by
  simp [picks, picksProbes, h]

@[simp] theorem picked_zero (w : World) : w.picked [] 0 = w := by
  simp [picked]

theorem picked_picked (w : World) (idxs idxs' : List Nat) (p q : Nat) :
    (w.picked idxs p).picked idxs' q = w.picked (idxs ++ idxs') (p + q) := by
  simp [picked, countRequests_append, UInt64.ofNat_add, UInt64.add_assoc]

theorem conn_picked (w : World) (idxs : List Nat) (p idx : Nat) :
    (w.picked idxs p).backends[idx]?.map BackendEntry.conn =
      w.backends[idx]?.map BackendEntry.conn := by
  simp only [picked, countRequests, List.getElem?_mapIdx, Option.map_map]
  rfl

theorem toNat_rrIndex_picked {w : World} {p : Nat} (h : w.rrIndex.toNat + p < 2 ^ 64)
    (idxs : List Nat) : (w.picked idxs p).rrIndex.toNat = w.rrIndex.toNat + p := by
  rw [picked, UInt64.toNat_add, UInt64.toNat_ofNat', Nat.add_mod_mod, Nat.mod_eq_of_lt h]

/-- Calls while no backend is healthy. -/
theorem picks_of_nil {w : World} {k : Nat}
    (hprobed : w.rrIndex.toNat + w.picksProbes k < 2 ^ 64) (horder : w.turnOrder = []) :
    w.picks k = (w.picked [] (w.picksProbes k), List.replicate k none) := by
  induction k generalizing w with
  | zero => simp [picks, picksProbes]
  | succ k ih =>
    have hfirst : w.rrIndex.toNat + w.pickProbes < 2 ^ 64 := by
      rw [picksProbes] at hprobed
      omega
    rcases pickBackend_spec hfirst with ⟨-, hpick⟩ | ⟨idx, order, hcons, -⟩
    · obtain ⟨hpicks, hprobes⟩ := picks_succ hpick k
      rw [hprobes, ← Nat.add_assoc, ← toNat_rrIndex_picked hfirst []] at hprobed
      have hrest : (w.picked [] w.pickProbes).turnOrder = [] := by
        rw [List.eq_nil_iff_forall_not_mem] at horder ⊢
        intro idx hidx
        apply horder idx
        rw [mem_turnOrder] at hidx ⊢
        rwa [picked, healthyAt_countRequests] at hidx
      rw [hpicks, hprobes, ih hprobed hrest, picked_picked, List.replicate_succ]
      rfl
    · rw [horder] at hcons
      cases hcons

/-- Calls while a backend is healthy: the healthy slots take turns. -/
theorem picks_of_ne_nil {w : World} {k : Nat}
    (hprobed : w.rrIndex.toNat + w.picksProbes k < 2 ^ 64) (horder : w.turnOrder ≠ []) :
    w.picks k = (w.picked (turns k w.turnOrder) (w.picksProbes k),
      (turns k w.turnOrder).map fun idx => w.backends[idx]?.map BackendEntry.conn) := by
  induction k generalizing w with
  | zero => simp [picks, picksProbes, turns_zero]
  | succ k ih =>
    have hfirst : w.rrIndex.toNat + w.pickProbes < 2 ^ 64 := by
      rw [picksProbes] at hprobed
      omega
    rcases pickBackend_spec hfirst with ⟨hnil, -⟩ | ⟨idx, order, hcons, hpick, hnext⟩
    · exact absurd hnil horder
    · obtain ⟨hpicks, hprobes⟩ := picks_succ hpick k
      rw [hprobes, ← Nat.add_assoc, ← toNat_rrIndex_picked hfirst [idx]] at hprobed
      have hrest := ih hprobed (by simp [hnext])
      rw [hnext] at hrest
      rw [hpicks, hprobes, hrest, picked_picked, hcons, turns_succ]
      simp only [conn_picked, List.map_cons, List.singleton_append]

/-! ## §5 Round robin -/

theorem exists_of_healthyAt {idx : Nat} (h : healthyAt backends idx = true) :
    ∃ e ∈ backends, backends[idx]? = some e ∧ e.healthy = true := by
  cases he : backends[idx]? with
  | none => simp [healthyAt, he] at h
  | some e => exact ⟨e, List.mem_of_getElem? he, rfl, by simpa [healthyAt, he] using h⟩

theorem turnOrder_eq_nil_iff {w : World} :
    w.turnOrder = [] ↔ ∀ e ∈ w.backends, e.healthy = false := by
  rw [List.eq_nil_iff_forall_not_mem]
  constructor
  · intro h e he
    obtain ⟨idx, hidx⟩ := List.mem_iff_getElem?.mp he
    by_contra hhealthy
    exact h idx (mem_turnOrder.mpr (by simpa [healthyAt, hidx] using hhealthy))
  · intro h idx hidx
    obtain ⟨e, he, -, hhealthy⟩ := exists_of_healthyAt (mem_turnOrder.mp hidx)
    exact absurd hhealthy (by rw [h e he]; exact Bool.false_ne_true)

/-- A slot of the order has a connection to answer with. -/
theorem conn_of_mem_turnOrder {w : World} {idx : Nat} (h : idx ∈ w.turnOrder) :
    w.backends[idx]?.map BackendEntry.conn ≠ none := by
  obtain ⟨e, -, he, -⟩ := exists_of_healthyAt (mem_turnOrder.mp h)
  simp [he]

/-- Any calls of `pick_backend` in a row, from any `rr_index`, while it does not wrap: they find
nothing if no backend is healthy, and otherwise the healthy slots one after the other in cyclic
order, none of them twice more often than another.  Nothing else of a backend changes. -/
theorem picks_round_robin {w : World} {k : Nat}
    (hprobed : w.rrIndex.toNat + w.picksProbes k < 2 ^ 64) :
    (∀ c ∈ (w.picks k).2, c = none ↔ ∀ e ∈ w.backends, e.healthy = false) ∧
      ((w.picks k).2.length = k ∧ ∀ i < k, (w.picks k).2[i]? =
        some (w.turnOrder[i % w.turnOrder.length]?.bind fun idx =>
          w.backends[idx]?.map BackendEntry.conn)) ∧
      (w.picks k).1 =
        { w with
            rrIndex := w.rrIndex + UInt64.ofNat (w.picksProbes k)
            backends := countRequests w.backends (turns k w.turnOrder) } ∧
      ∀ a b, healthyAt w.backends a = true → healthyAt w.backends b = true →
        (turns k w.turnOrder).count a ≤ (turns k w.turnOrder).count b + 1 := by
  have hcount : ∀ a b, healthyAt w.backends a = true → healthyAt w.backends b = true →
      (turns k w.turnOrder).count a ≤ (turns k w.turnOrder).count b + 1 := fun a b ha hb =>
    count_turns_le k (nodup_turnOrder w) (mem_turnOrder.mpr ha) (mem_turnOrder.mpr hb)
  by_cases horder : w.turnOrder = []
  · rw [picks_of_nil hprobed horder]
    refine ⟨fun c hc => ?_, ⟨List.length_replicate, fun i hi => ?_⟩, ?_, hcount⟩
    · rw [(List.mem_replicate.mp hc).2, ← turnOrder_eq_nil_iff]
      exact iff_of_true rfl horder
    · simp [horder, hi]
    · rw [horder, turns_nil]
      rfl
  · rw [picks_of_ne_nil hprobed horder]
    refine ⟨fun c hc => ?_, ⟨?_, fun i hi => ?_⟩, rfl, hcount⟩
    · obtain ⟨idx, hidx, rfl⟩ := List.mem_map.mp hc
      rw [← turnOrder_eq_nil_iff]
      exact iff_of_false (conn_of_mem_turnOrder (mem_of_mem_turns hidx)) horder
    · rw [List.length_map, length_turns k horder]
    · have hlt : i % w.turnOrder.length < w.turnOrder.length :=
        Nat.mod_lt i (List.length_pos_of_ne_nil horder)
      rw [List.getElem?_map, getElem?_turns w.turnOrder hi, List.getElem?_eq_getElem hlt]
      rfl

/-- Three backends, the second of them not healthy, and the third one next. -/
def threeBackends : World :=
  { init with
    rrIndex := 5
    backends := [⟨"a", 1, 0, true, 0⟩, ⟨"b", 2, 0, false, 0⟩, ⟨"c", 3, 0, true, 0⟩] }

/-- Five calls probe eight slots. -/
theorem picks_round_robin_three :
    (threeBackends.picks 5).1.backends =
      [⟨"a", 1, 0, true, 2⟩, ⟨"b", 2, 0, false, 0⟩, ⟨"c", 3, 0, true, 3⟩] := by
  have h := picks_round_robin (w := threeBackends) (k := 5) (by decide +kernel)
  rw [h.2.2.1]
  decide +kernel

end World

end EchoNet.Gateway
