import EchoNet.Lib.Machine
import Mathlib.Data.List.Infix

/-!
# Batch Queues

Producers append to a queue.  The one consumer, when it has served its batch, takes the whole
queue as its next batch and serves it from the front.

- `contents` is conserved: what has been served, the rest of the batch and the queue are together
  what has been pushed, in this order (`contents_run`);
- `Refines` is the obligation of a program that holds such a queue, one step of it at a time, and
  `Refines.contents` and `Refines.served_prefix` are what it gives for the runs of the program.
-/

namespace EchoNet.Lib

/-- A queue, the part of the current batch that is not served, and what has been served. -/
structure BatchQueue (α : Type*) where
  queue : List α
  batch : List α
  served : List α

namespace BatchQueue

variable {α : Type*}

def empty : BatchQueue α := ⟨[], [], []⟩

inductive Act (α : Type*) where
  | push (x : α)
  | swap
  | serve

/-- The element that a step pushes. -/
def Act.pushed : Act α → Option α
  | .push x => some x
  | .swap | .serve => none

def step (q : BatchQueue α) : Act α → Option (BatchQueue α)
  | .push x => some { q with queue := q.queue ++ [x] }
  | .swap =>
    match q.batch with
    | [] => some { q with queue := [], batch := q.queue }
    | _ :: _ => none
  | .serve =>
    match q.batch with
    | [] => none
    | x :: rest => some { q with batch := rest, served := q.served ++ [x] }

/-- Everything that has been pushed, the oldest first. -/
def contents (q : BatchQueue α) : List α := q.served ++ q.batch ++ q.queue

@[simp] theorem contents_empty : (empty : BatchQueue α).contents = [] := rfl

/-- A step adds to the contents what it pushes. -/
theorem contents_step {q q' : BatchQueue α} {a : Act α} (h : q.step a = some q') :
    q'.contents = q.contents ++ a.pushed.toList := by
  cases a with
  | push x =>
    cases h
    simp [contents, Act.pushed]
  | swap =>
    simp only [step] at h
    split at h
    · cases h
      simp [contents, Act.pushed, *]
    · cases h
  | serve =>
    simp only [step] at h
    split at h
    · cases h
    · cases h
      simp [contents, Act.pushed, *]

/-- A run adds to the contents what its steps push. -/
theorem contents_run {q q' : BatchQueue α} {acts : List (Act α)}
    (hrun : run step q acts = some q') :
    q'.contents = q.contents ++ acts.filterMap Act.pushed := by
  induction acts generalizing q with
  | nil =>
    cases hrun
    simp
  | cons a acts ih =>
    obtain ⟨r, hr, hq'⟩ := run_cons_eq_some.mp hrun
    rw [ih hq', contents_step hr, List.append_assoc]
    cases ha : a.pushed with
    | none => simp [ha]
    | some x => simp [ha]

/-- Each step of a machine is a run of the queue `f` in its state that pushes what `pushed` says
of the label. -/
def Refines {σ β : Type*} (step : σ → β → Option σ) (f : σ → BatchQueue α)
    (pushed : β → Option α) : Prop :=
  ∀ s b t, step s b = some t → ∃ acts, run BatchQueue.step (f s) acts = some (f t) ∧
    acts.filterMap Act.pushed = (pushed b).toList

/-- A step of a machine that leaves the queue alone and pushes nothing. -/
theorem exists_run_of_eq {q q' : BatchQueue α} {pushed : Option α} (heq : q' = q)
    (hpushed : pushed = none) :
    ∃ acts, run step q acts = some q' ∧ acts.filterMap Act.pushed = pushed.toList := by
  subst heq hpushed
  exact ⟨[], rfl, rfl⟩

section Refines

variable {σ β : Type*} {step : σ → β → Option σ} {f : σ → BatchQueue α} {pushed : β → Option α}

/-- Nothing is lost, reordered or duplicated between the pushes and the queue's contents. -/
theorem Refines.contents (h : Refines step f pushed) {s t : σ} {bs : List β}
    (hrun : run step s bs = some t) :
    (f t).contents = (f s).contents ++ bs.filterMap pushed := by
  induction bs generalizing s with
  | nil =>
    cases hrun
    simp
  | cons b bs ih =>
    obtain ⟨u, hu, ht⟩ := run_cons_eq_some.mp hrun
    obtain ⟨acts, hacts, hpushed⟩ := h s b u hu
    rw [ih ht, contents_run hacts, hpushed, List.append_assoc]
    cases hb : pushed b with
    | none => simp [hb]
    | some x => simp [hb]

/-- The served elements are a prefix of the pushed ones. -/
theorem Refines.served_prefix (h : Refines step f pushed) {s t : σ} {bs : List β}
    (hs : f s = empty) (hrun : run step s bs = some t) :
    (f t).served <+: bs.filterMap pushed := by
  have hcontents := h.contents hrun
  rw [hs, contents_empty, List.nil_append] at hcontents
  rw [← hcontents, BatchQueue.contents, List.append_assoc]
  exact List.prefix_append _ _

end Refines

end BatchQueue

end EchoNet.Lib
