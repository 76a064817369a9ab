import EchoNet.Lib.Places
import EchoNet.Lib.Ranking
import Mathlib.Tactic.SplitIfs

/-!
# The Redis Connection Pool

`RedisPool` (src/src/DB/RedisPool.cpp).  A caller of `getConnection` that finds `pool_` empty waits
on the condition variable for 500 ms at most; `releaseConnection` brings a connection back and
wakes one waiting caller.  A caller that comes later can take the connection before the one that
was woken, a woken caller can find nothing, and a caller can wake up for no reason.

- A waiting caller is whether it has been woken.  Each step is one critical section.
- A connection is handed back through the deleter of the `shared_ptr`, whoever has the last copy.
- `refused` is history: for each call that returned `nullptr`, how many connections were on loan.

## Main results

- `redisPool_sound`: the pool keeps its connections, lends each of them to one caller at a time,
  and refuses a caller only if all of them are on loan; as long as a caller sleeps, there are as
  many woken callers as connections in the pool;
- `redisPool_serves`: so the woken callers alone bring the pool to rest, and then nobody sleeps next
  to a free connection.
-/

namespace EchoNet.DB

open EchoNet.Lib

/-! ## §1 The pool -/

/-- `redisContext*`: the number of the attempt that made it. -/
abbrev Context := Nat

/-- `class RedisPool`, the callers in `wait_for`, and the connections on loan. -/
structure RedisPool where
  pool : List Context
  /-- `true` for a caller that has been woken -/
  waiters : List Bool
  onLoan : List Context
  refused : List Nat
  deriving DecidableEq, Repr

namespace RedisPool

/-- The constructor: the attempts of `redisConnect` that succeed. -/
def construct (attempts : List Bool) : RedisPool where
  pool := (List.range attempts.length).filter fun i => attempts[i]?.getD false
  waiters := []
  onLoan := []
  refused := []

inductive Act where
  /-- `getConnection` is called -/
  | call
  /-- `releaseConnection` of a connection on loan; `notify_one` wakes a sleeping caller, if there
  is one -/
  | release (k : Nat) (wake : Option Nat)
  /-- a caller wakes up and evaluates the predicate, in time or when its 500 ms are over -/
  | resume (i : Nat)
  | timeout (i : Nat)
  deriving DecidableEq, Repr

/-- The rest of `getConnection` when `pool_` is not empty. -/
def lend (p : RedisPool) (conn : Context) (pool : List Context) : RedisPool :=
  { p with pool := pool, onLoan := p.onLoan ++ [conn] }

/-- `notify_one`: some sleeping caller, or nobody if there is none. -/
def notifyOne (waiters : List Bool) : Option Nat → Option (List Bool)
  | some i => if waiters[i]? = some false then some (waiters.set i true) else none
  | none => if false ∈ waiters then none else some waiters

def step (p : RedisPool) : Act → Option RedisPool
  | .call =>
    match p.pool with
    | conn :: pool => some (p.lend conn pool)
    | [] => some { p with waiters := p.waiters ++ [false] }
  | .release k wake =>
    match p.onLoan[k]? with
    | some conn =>
      (notifyOne p.waiters wake).map fun waiters =>
        { p with pool := p.pool ++ [conn], onLoan := p.onLoan.eraseIdx k, waiters := waiters }
    | none => none
  | .resume i =>
    if i < p.waiters.length then
      match p.pool with
      | conn :: pool => some { p.lend conn pool with waiters := p.waiters.eraseIdx i }
      | [] => some { p with waiters := p.waiters.set i false }
    else none
  | .timeout i =>
    if i < p.waiters.length then
      match p.pool with
      | conn :: pool => some { p.lend conn pool with waiters := p.waiters.eraseIdx i }
      | [] => some { p with
          waiters := p.waiters.eraseIdx i, refused := p.refused ++ [p.onLoan.length] }
    else none

/-- Everything a step can do. -/
inductive Step (p : RedisPool) : Act → RedisPool → Prop where
  | call {conn : Context} {pool : List Context} (hpool : p.pool = conn :: pool) :
      Step p .call (p.lend conn pool)
  | wait (hpool : p.pool = []) : Step p .call { p with waiters := p.waiters ++ [false] }
  | notify {k i : Nat} {conn : Context} (hk : p.onLoan[k]? = some conn)
      (hi : p.waiters[i]? = some false) :
      Step p (.release k (some i))
        { p with pool := p.pool ++ [conn], onLoan := p.onLoan.eraseIdx k,
                 waiters := p.waiters.set i true }
  | release {k : Nat} {conn : Context} (hk : p.onLoan[k]? = some conn)
      (hwaiters : false ∉ p.waiters) :
      Step p (.release k none)
        { p with pool := p.pool ++ [conn], onLoan := p.onLoan.eraseIdx k }
  | serve {a : Act} {i : Nat} {woken : Bool} {conn : Context} {pool : List Context}
      (ha : a = .resume i ∨ a = .timeout i) (hi : p.waiters[i]? = some woken)
      (hpool : p.pool = conn :: pool) :
      Step p a { p.lend conn pool with waiters := p.waiters.eraseIdx i }
  | sleep {i : Nat} {woken : Bool} (hi : p.waiters[i]? = some woken) (hpool : p.pool = []) :
      Step p (.resume i) { p with waiters := p.waiters.set i false }
  | refuse {i : Nat} {woken : Bool} (hi : p.waiters[i]? = some woken) (hpool : p.pool = []) :
      Step p (.timeout i)
        { p with waiters := p.waiters.eraseIdx i, refused := p.refused ++ [p.onLoan.length] }

theorem step_cases {p q : RedisPool} {a : Act} (h : p.step a = some q) : Step p a q := by
  cases a with
  | call =>
    simp only [step] at h
    split at h
    next conn pool hpool => cases h; exact .call hpool
    next hpool => cases h; exact .wait hpool
  | release k wake =>
    simp only [step] at h
    split at h
    next conn hk =>
      obtain ⟨waiters, hwaiters, rfl⟩ := Option.map_eq_some_iff.mp h
      cases wake with
      | some i =>
        simp only [notifyOne] at hwaiters
        split_ifs at hwaiters with hi
        cases hwaiters
        exact .notify hk hi
      | none =>
        simp only [notifyOne] at hwaiters
        split_ifs at hwaiters with hmem
        cases hwaiters
        exact .release hk hmem
    next => cases h
  | resume i =>
    simp only [step] at h
    split_ifs at h with hlt
    have hi := List.getElem?_eq_getElem hlt
    split at h
    next conn pool hpool => cases h; exact .serve (Or.inl rfl) hi hpool
    next hpool => cases h; exact .sleep hi hpool
  | timeout i =>
    simp only [step] at h
    split_ifs at h with hlt
    have hi := List.getElem?_eq_getElem hlt
    split at h
    next conn pool hpool => cases h; exact .serve (Or.inr rfl) hi hpool
    next hpool => cases h; exact .refuse hi hpool

/-! ## §2 The connections -/

/-- All of its connections, in the pool or on loan. -/
def contexts (p : RedisPool) : List Context := p.pool ++ p.onLoan

theorem contexts_lend {p : RedisPool} {conn : Context} {pool : List Context}
    (hpool : p.pool = conn :: pool) : (p.lend conn pool).contexts.Perm p.contexts := by
  rw [contexts, contexts, hpool, List.cons_append, lend, ← List.append_assoc]
  exact List.perm_append_singleton conn _

theorem contexts_step {p q : RedisPool} {a : Act} (h : Step p a q) :
    q.contexts.Perm p.contexts := by
  have hback : ∀ {k : Nat} {conn : Context}, p.onLoan[k]? = some conn →
      (p.pool ++ [conn] ++ p.onLoan.eraseIdx k).Perm p.contexts := by
    intro k conn hk
    rw [List.append_assoc]
    exact List.Perm.append_left _ (perm_cons_eraseIdx hk).symm
  cases h with
  | call hpool => exact contexts_lend hpool
  | serve ha hi hpool => exact contexts_lend hpool
  | notify hk hi => exact hback hk
  | release hk hwaiters => exact hback hk
  | wait hpool | sleep hi hpool | refuse hi hpool => exact List.Perm.refl _

/-! ## §3 The waiting callers -/

/-- The number of the woken callers that have not run yet. -/
def woken (p : RedisPool) : Nat := p.waiters.countP id

/-- Each connection in the pool has been announced to somebody, or there is nobody to tell. -/
def Announced (p : RedisPool) : Prop := false ∈ p.waiters → p.pool.length ≤ p.woken

theorem countP_eraseIdx_ge {l : List Bool} {i : Nat} {b : Bool} (h : l[i]? = some b) :
    l.countP id ≤ (l.eraseIdx i).countP id + 1 := by
  have hcount := countP_eraseIdx_add h id
  have hb : (id b).toNat ≤ 1 := Bool.toNat_le b
  omega

theorem announced_serve {p : RedisPool} (hp : p.Announced) {i : Nat} {b : Bool} {conn : Context}
    {pool : List Context} (hi : p.waiters[i]? = some b) (hpool : p.pool = conn :: pool) :
    Announced { p.lend conn pool with waiters := p.waiters.eraseIdx i } := by
  intro hsleeps
  have hle := hp (List.mem_of_mem_eraseIdx hsleeps)
  have hcount := countP_eraseIdx_ge hi
  rw [hpool, List.length_cons, woken] at hle
  exact Nat.le_of_add_le_add_right (Nat.le_trans hle hcount)

theorem Announced.step {p q : RedisPool} {a : Act} (hp : p.Announced) (h : Step p a q) :
    q.Announced := by
  cases h with
  | call hpool =>
    intro hsleeps
    have hle := hp hsleeps
    rw [hpool, List.length_cons] at hle
    exact Nat.le_of_succ_le hle
  | serve ha hi hpool => exact announced_serve hp hi hpool
  | notify hk hi =>
    -- the connection that comes back is announced to the caller that is woken
    intro _
    have hle := hp (List.mem_of_getElem? hi)
    have hcount := countP_set_add hi id true
    simp only [id_eq, Bool.toNat_false, Bool.toNat_true, Nat.add_zero] at hcount
    rw [woken, hcount, List.length_append, List.length_singleton]
    exact Nat.add_le_add_right hle 1
  | release hk hwaiters => exact fun hsleeps => absurd hsleeps hwaiters
  | wait hpool | sleep hi hpool | refuse hi hpool =>
    intro _
    simp only [hpool, List.length_nil, Nat.zero_le]

/-- A caller is refused only if every connection is on loan. -/
def RefusedRightly (n : Nat) (p : RedisPool) : Prop := ∀ m ∈ p.refused, m = n

structure Inv (initial : List Context) (p : RedisPool) : Prop where
  contexts : p.contexts.Perm initial
  announced : p.Announced
  refused : RefusedRightly initial.length p

theorem Inv.construct (attempts : List Bool) :
    Inv (construct attempts).pool (RedisPool.construct attempts) where
  contexts := List.Perm.of_eq (List.append_nil _)
  announced := fun hsleeps => absurd hsleeps List.not_mem_nil
  refused := nofun

theorem Inv.step {initial : List Context} {p q : RedisPool} {a : Act} (hi : Inv initial p)
    (h : p.step a = some q) : Inv initial q := by
  have hstep := step_cases h
  refine ⟨(contexts_step hstep).trans hi.contexts, hi.announced.step hstep, ?_⟩
  cases hstep with
  | refuse hw hpool =>
    intro m hm
    rcases List.mem_append.mp hm with hm | hm
    · exact hi.refused m hm
    · -- the pool is empty, so the loans are all there is
      have hloans := hi.contexts.length_eq
      rw [RedisPool.contexts, hpool, List.nil_append] at hloans
      rw [List.mem_singleton.mp hm, hloans]
  | _ => exact hi.refused

theorem construct_nodup (attempts : List Bool) : (construct attempts).pool.Nodup :=
  List.nodup_range.filter _

/-- In every run the pool keeps the connections that it has made, none of them is in the pool or on
loan twice, a caller is refused only while all of them are on loan, and as long as a caller sleeps
in `wait_for` there are at least as many woken callers as connections in the pool. -/
theorem redisPool_sound (attempts : List Bool) (acts : List Act) (p : RedisPool)
    (hrun : run step (construct attempts) acts = some p) :
    (p.pool ++ p.onLoan).Perm (construct attempts).pool ∧ (p.pool ++ p.onLoan).Nodup ∧
      (∀ n ∈ p.refused, n = (construct attempts).pool.length) ∧
      (false ∈ p.waiters → p.pool.length ≤ p.waiters.countP id) := by
  have hi : Inv (construct attempts).pool p :=
    run_invariant (fun _ _ _ hi hstep => hi.step hstep) (.construct attempts) hrun
  exact ⟨hi.contexts, hi.contexts.nodup_iff.mpr (construct_nodup attempts), hi.refused,
    hi.announced⟩

/-- Two connections and four callers: one waits and is woken, but a later one is faster. -/
def overtaken : List Act :=
  [.call, .call, .call, .release 0 (some 0), .call, .resume 0, .timeout 0, .release 1 none]

theorem redisPool_sound_overtaken :
    ∃ p, run step (construct [true, false, true]) overtaken = some p ∧ p.refused = [2] ∧
      (p.pool ++ p.onLoan).Perm (construct [true, false, true]).pool := by
  refine ⟨_, rfl, rfl, ?_⟩
  exact (redisPool_sound [true, false, true] overtaken _ rfl).1

/-! ## §4 The woken callers -/

/-- A woken caller runs. -/
def wokenStep (p : RedisPool) (i : Nat) : Option RedisPool :=
  if p.waiters[i]? = some true then p.step (.resume i) else none

theorem wokenStep_eq_some {p q : RedisPool} {i : Nat} (h : p.wokenStep i = some q) :
    p.waiters[i]? = some true ∧ p.step (.resume i) = some q := by
  unfold wokenStep at h
  split_ifs at h with hi
  exact ⟨hi, h⟩

/-- It takes a connection, or goes back to sleep: there is one woken caller less. -/
theorem wokenStep_lowers : Lowers wokenStep (fun _ => true) woken := by
  intro p i q _ h
  obtain ⟨hi, hstep⟩ := wokenStep_eq_some h
  cases step_cases hstep with
  | serve ha hw hpool =>
    rcases ha with heq | heq
    · cases heq
      have hcount := countP_eraseIdx_add hi id
      simp only [id_eq, Bool.toNat_true] at hcount
      simp only [woken]
      omega
    · cases heq
  | sleep hw hpool =>
    have hcount := countP_set_add hi id false
    simp only [id_eq, Bool.toNat_true, Bool.toNat_false, Nat.add_zero] at hcount
    simp only [woken]
    omega

theorem woken_run {p q : RedisPool} {is : List Nat} (hrun : run wokenStep p is = some q) :
    ∃ acts, run step p acts = some q := by
  induction is generalizing p with
  | nil =>
    cases hrun
    exact ⟨[], rfl⟩
  | cons i is ih =>
    obtain ⟨u, hu, ht⟩ := run_cons_eq_some.mp hrun
    obtain ⟨acts, hacts⟩ := ih ht
    exact ⟨.resume i :: acts, run_cons_eq_some.mpr ⟨u, (wokenStep_eq_some hu).2, hacts⟩⟩

/-- Wherever a run has come to, the woken callers run at most once each, in any order, and when
none of them is left either the pool is empty or nobody sleeps. -/
theorem redisPool_serves (attempts : List Bool) (acts : List Act) (p : RedisPool)
    (hrun : run step (construct attempts) acts = some p) (is : List Nat) (q : RedisPool)
    (hwoken : run wokenStep p is = some q) :
    is.length + q.woken ≤ p.woken ∧
      ((∀ i, q.wokenStep i = none) → q.pool = [] ∨ q.waiters = []) := by
  refine ⟨wokenStep_lowers.length_add_rank_le (fun _ _ => rfl) hwoken, fun hrest => ?_⟩
  obtain ⟨more, hmore⟩ := woken_run hwoken
  have hi : Inv (construct attempts).pool q := run_invariant (fun _ _ _ hi hstep => hi.step hstep)
    (.construct attempts) (run_append.mpr ⟨p, hrun, hmore⟩)
  -- nobody is awake any more
  have hasleep : ∀ b ∈ q.waiters, b = false := by
    intro b hb
    obtain ⟨i, hlt, rfl⟩ := List.mem_iff_getElem.mp hb
    by_contra htrue
    have hi : q.waiters[i]? = some true := by
      rw [List.getElem?_eq_getElem hlt, (Bool.not_eq_false _).mp htrue]
    have hnone := hrest i
    rw [wokenStep, if_pos hi] at hnone
    simp only [step, if_pos hlt] at hnone
    split at hnone
    · cases hnone
    · cases hnone
  cases hwaiters : q.waiters with
  | nil => exact Or.inr rfl
  | cons b rest =>
    left
    have hmem : b ∈ q.waiters := hwaiters ▸ List.mem_cons_self
    have hle := hi.announced (hasleep b hmem ▸ hmem)
    have hzero : q.woken = 0 :=
      List.countP_eq_zero.mpr fun x hx hid => Bool.false_ne_true ((hasleep x hx).symm.trans hid)
    rw [hzero] at hle
    exact List.length_eq_zero_iff.mp (Nat.le_zero.mp hle)

/-- Two callers wait, and the two connections come back one after the other. -/
def bothReturn : List Act :=
  [.call, .call, .call, .call, .release 0 (some 1), .release 0 (some 0)]

theorem redisPool_serves_two :
    ∃ p q, run step (construct [true, true]) bothReturn = some p ∧
      run wokenStep p [1, 0] = some q ∧ 2 + q.woken ≤ p.woken ∧
      ((∀ i, q.wokenStep i = none) → q.pool = [] ∨ q.waiters = []) := by
  have hall : ((run step (construct [true, true]) bothReturn).any fun p =>
      (run wokenStep p [1, 0]).any fun _ => true) = true := by
    decide
  obtain ⟨p, hp, hrest⟩ := exists_of_run_any hall
  obtain ⟨q, hq, -⟩ := exists_of_run_any hrest
  exact ⟨p, q, hp, hq, redisPool_serves [true, true] bothReturn p hp [1, 0] q hq⟩

end RedisPool

end EchoNet.DB
