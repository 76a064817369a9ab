import EchoNet.Lib.Machine
import Mathlib.Tactic.SplitIfs

/-!
# The MySQL Connection Pool

`MySQLPool` (src/src/DB/MySQLPool.cpp).  A connection leaves `pool_` under the lock and is checked
without it; a dead one is closed and replaced, and the deleter of the `shared_ptr` brings it back.
Any number of threads call `getConnection` and let go of connections in any order, and each call of
the client library succeeds or fails as it likes.

## Main results

- `total_add_failures`: every failed reconnect costs the pool a connection, and nothing else does;
- `connections_conserved_iff`: the pool keeps its connections in every state of a run exactly when
  every reconnect succeeds;
- `outage_empties_pool`: an outage in which each connection is checked once.
-/

namespace EchoNet.DB

open EchoNet.Lib

/-! ## §1 The pool -/

/-- `MYSQL*`: the number of the allocation. -/
abbrev Handle := Nat

/-- `mysql_init` followed by `mysql_real_connect`. -/
inductive Connect where
  | initFailed
  | connectFailed
  | connected
  deriving DecidableEq, Repr

/-- A call of `getConnection` that has taken a connection and unlocked. -/
inductive Call where
  /-- before `mysql_ping` -/
  | checking (conn : Handle)
  /-- after `mysql_close` of the dead connection -/
  | reconnecting
  deriving DecidableEq, Repr

/-- `class MySQLPool`, the calls that are under way and the connections on loan. -/
structure MySQLPool where
  pool : List Handle
  calls : List Call
  onLoan : List Handle
  fresh : Handle
  deriving DecidableEq, Repr

namespace MySQLPool

def empty : MySQLPool := ⟨[], [], [], 0⟩

/-- One round of the constructor's loop. -/
def addConnection (p : MySQLPool) : Connect → MySQLPool
  | .connected => { p with pool := p.pool ++ [p.fresh], fresh := p.fresh + 1 }
  | _ => p

/-- The constructor: `pool_size` attempts. -/
def construct (attempts : List Connect) : MySQLPool := attempts.foldl addConnection empty

inductive Act where
  /-- `getConnection` finds a connection in `pool_` -/
  | take
  /-- the wait of `getConnection` ends after 500 ms, and `pool_` is empty -/
  | timeout
  | ping (k : Nat) (alive : Bool)
  | reconnect (k : Nat) (outcome : Connect)
  /-- `releaseConnection`, the deleter of the `shared_ptr` -/
  | release (k : Nat)
  deriving DecidableEq, Repr

def step (p : MySQLPool) : Act → Option MySQLPool
  | .take =>
    match p.pool with
    | [] => none
    | conn :: pool => some { p with pool := pool, calls := p.calls ++ [.checking conn] }
  | .timeout =>
    match p.pool with
    | [] => some p
    | _ => none
  | .ping k alive =>
    match p.calls[k]? with
    | some (.checking conn) =>
      if alive then some { p with calls := p.calls.eraseIdx k, onLoan := p.onLoan ++ [conn] }
      else some { p with calls := p.calls.set k .reconnecting }
    | _ => none
  | .reconnect k outcome =>
    match p.calls[k]? with
    | some .reconnecting =>
      match outcome with
      | .connected =>
        some { p with
          calls := p.calls.eraseIdx k
          onLoan := p.onLoan ++ [p.fresh]
          fresh := p.fresh + 1 }
      -- `getConnection` returns `nullptr`
      | _ => some { p with calls := p.calls.eraseIdx k }
    | _ => none
  | .release k =>
    match p.onLoan[k]? with
    | none => none
    | some conn => some { p with pool := p.pool ++ [conn], onLoan := p.onLoan.eraseIdx k }

/-- Everything a step can do. -/
inductive Step (p : MySQLPool) : Act → MySQLPool → Prop where
  | take {conn : Handle} {pool : List Handle} (hpool : p.pool = conn :: pool) :
      Step p .take { p with pool := pool, calls := p.calls ++ [.checking conn] }
  | timeout (hpool : p.pool = []) : Step p .timeout p
  | alive {k : Nat} {conn : Handle} (hk : p.calls[k]? = some (.checking conn)) :
      Step p (.ping k true) { p with calls := p.calls.eraseIdx k, onLoan := p.onLoan ++ [conn] }
  | dead {k : Nat} {conn : Handle} (hk : p.calls[k]? = some (.checking conn)) :
      Step p (.ping k false) { p with calls := p.calls.set k .reconnecting }
  | reconnected {k : Nat} (hk : p.calls[k]? = some .reconnecting) :
      Step p (.reconnect k .connected)
        { p with calls := p.calls.eraseIdx k, onLoan := p.onLoan ++ [p.fresh], fresh := p.fresh + 1 }
  | failed {k : Nat} {outcome : Connect} (hk : p.calls[k]? = some .reconnecting)
      (hfailed : outcome ≠ .connected) :
      Step p (.reconnect k outcome) { p with calls := p.calls.eraseIdx k }
  | release {k : Nat} {conn : Handle} (hk : p.onLoan[k]? = some conn) :
      Step p (.release k) { p with pool := p.pool ++ [conn], onLoan := p.onLoan.eraseIdx k }

theorem step_cases {p p' : MySQLPool} {a : Act} (h : p.step a = some p') : Step p a p' := by
  cases a with
  | take =>
    simp only [step] at h
    split at h
    next => cases h
    next conn pool hpool => cases h; exact .take hpool
  | timeout =>
    simp only [step] at h
    split at h
    next hpool => cases h; exact .timeout hpool
    next => cases h
  | ping k alive =>
    simp only [step] at h
    split at h
    next conn hk =>
      cases alive with
      | true => cases h; exact .alive hk
      | false => cases h; exact .dead hk
    next => cases h
  | reconnect k outcome =>
    simp only [step] at h
    split at h
    next hk =>
      cases outcome with
      | connected => cases h; exact .reconnected hk
      | initFailed => cases h; exact .failed hk (by decide)
      | connectFailed => cases h; exact .failed hk (by decide)
    next => cases h
  | release k =>
    simp only [step] at h
    split at h
    next => cases h
    next conn hk => cases h; exact .release hk

/-! ## §2 The number of connections -/

/-- The connections in `pool_`, being checked and on loan. -/
def total (p : MySQLPool) : Nat := p.pool.length + p.calls.length + p.onLoan.length

/-- A reconnect that fails. -/
def Act.fails : Act → Bool
  | .reconnect _ outcome => outcome ≠ .connected
  | _ => false

private theorem length_eraseIdx_add_one {α : Type*} {l : List α} {k : Nat} {x : α}
    (hk : l[k]? = some x) : (l.eraseIdx k).length + 1 = l.length := by
  have hlt := (List.getElem?_eq_some_iff.mp hk).1
  rw [List.length_eraseIdx_of_lt hlt]
  omega

/-- A failed reconnect loses the connection that it was to replace. -/
theorem total_step {p p' : MySQLPool} {a : Act} (hstep : Step p a p') :
    p'.total + (if a.fails then 1 else 0) = p.total := by
  cases hstep with
  | take hpool =>
    simp only [total, hpool, Act.fails, List.length_append, List.length_cons, List.length_nil]
    simp only [Bool.false_eq_true, if_false]
    omega
  | timeout hpool => simp [Act.fails]
  | alive hk =>
    have hcalls := length_eraseIdx_add_one hk
    simp only [total, Act.fails, List.length_append, List.length_singleton, Bool.false_eq_true,
      if_false]
    omega
  | dead hk => simp [total, Act.fails]
  | reconnected hk =>
    have hcalls := length_eraseIdx_add_one hk
    simp only [total, Act.fails, List.length_append, List.length_singleton, ne_eq,
      not_true_eq_false, decide_false, Bool.false_eq_true, if_false]
    omega
  | failed hk hfailed =>
    have hcalls := length_eraseIdx_add_one hk
    simp only [total, Act.fails, hfailed, ne_eq, not_false_eq_true, decide_true, if_true]
    omega
  | release hk =>
    have hloan := length_eraseIdx_add_one hk
    simp only [total, Act.fails, List.length_append, List.length_singleton, Bool.false_eq_true,
      if_false]
    omega

/-- After a run the pool has lost as many connections as reconnects have failed. -/
theorem total_add_failures {p q : MySQLPool} {acts : List Act} (hrun : run step p acts = some q) :
    q.total + acts.countP Act.fails = p.total := by
  induction acts generalizing p with
  | nil =>
    cases hrun
    rfl
  | cons a as ih =>
    obtain ⟨r, hr, hq⟩ := run_cons_eq_some.mp hrun
    have hstep := total_step (step_cases hr)
    have hrest := ih hq
    rw [List.countP_cons]
    omega

/-- A lost connection does not come back. -/
theorem total_le {p q : MySQLPool} {acts : List Act} (hrun : run step p acts = some q) :
    q.total ≤ p.total := Nat.le_of_add_right_le (Nat.le_of_eq (total_add_failures hrun))

/-- The reconnects succeed. -/
def Reconnects (_ : MySQLPool) (a : Act) : Prop := a.fails = false

instance (p : MySQLPool) (a : Act) : Decidable (p.Reconnects a) :=
  inferInstanceAs (Decidable (a.fails = false))

/-- **Conservation of connections, exactly.**  In every state of a run the pool has as many
connections as after its construction exactly when no reconnect of the run fails. -/
theorem connections_conserved_iff {attempts : List Connect} {acts : List Act} {q : MySQLPool}
    (hrun : run step (construct attempts) acts = some q) :
    (∀ pre post v, acts = pre ++ post → run step (construct attempts) pre = some v →
      v.total = (construct attempts).total) ↔
    Meets step Reconnects (construct attempts) acts := by
  refine (meets_iff_forall_state (I := fun _ => True)
    (P := fun v : MySQLPool => v.total = (construct attempts).total) (fun _ _ _ _ _ => trivial) ?_
    trivial rfl hrun).symm
  intro p a p' _ htotal hstep
  have h := total_step (step_cases hstep)
  rw [← htotal, Reconnects]
  split_ifs at h with hfails
  · exact iff_of_false (by omega) (by simp [hfails])
  · exact iff_of_true (by omega) (Bool.eq_false_iff.mpr hfails)

/-- Two callers at once, one of which finds its connection dead. -/
def replaceDead : List Act :=
  [.take, .take, .ping 0 false, .ping 1 true, .timeout, .reconnect 0 .connected, .release 1, .release 0]

theorem connections_conserved_iff_replaceDead :
    ∃ q, run step (construct [.connected, .connectFailed, .connected]) replaceDead = some q ∧
      ∀ pre post v, replaceDead = pre ++ post →
        run step (construct [.connected, .connectFailed, .connected]) pre = some v →
        v.total = (construct [.connected, .connectFailed, .connected]).total :=
  ⟨_, rfl, (connections_conserved_iff rfl).mpr (by decide)⟩

/-- Four connections are borrowed while the database is away. -/
def outage : List Act :=
  [.take, .ping 0 false, .reconnect 0 .connectFailed, .take, .ping 0 false,
    .reconnect 0 .connectFailed, .take, .ping 0 false, .reconnect 0 .connectFailed, .take,
    .ping 0 false, .reconnect 0 .connectFailed, .timeout]

/-- Four connections after the construction, none after the outage. -/
theorem outage_empties_pool :
    (construct (.replicate 4 .connected)).total = 4 ∧
      ∃ q, run step (construct (.replicate 4 .connected)) outage = some q ∧ q.total = 0 :=
  ⟨rfl, _, rfl, rfl⟩

end MySQLPool

end EchoNet.DB
