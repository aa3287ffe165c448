import AeronReplay.Lib.Transition

set_option autoImplicit false

/-! # The bounded FIFO queue

The abstract queue of capacity `cap`: a list, filled at the back and emptied at the front. A
refused insertion is only possible on a full queue, a refused removal only on an empty one, and
a size query answers the number of stored values. `run_conserved` is what a FIFO is for: at
every moment the values removed, followed by the values stored, are the values inserted, in
order. `run_promised` is what a size query promises to the side that removes. -/

namespace Fifo

open Transition

/-- What an observer sees of a queue. -/
inductive Event (α : Type) where
  | enq (a : α)
  | deq (a : α)
  | full
  | empty
  | size (n : Nat)
  deriving DecidableEq

variable {α : Type}

def Event.enq? : Event α → Option α
  | .enq a => some a
  | _ => none

def Event.deq? : Event α → Option α
  | .deq a => some a
  | _ => none

/-- The values inserted by a history, in order. -/
def enqs (es : List (Event α)) : List α := es.filterMap Event.enq?

/-- The values removed by a history, in order. -/
def deqs (es : List (Event α)) : List α := es.filterMap Event.deq?

/-- One operation of a queue of capacity `cap`. -/
inductive Step (cap : Nat) : List α → List (Event α) → List α → Prop
  | enq {q : List α} (a : α) (h : q.length < cap) : Step cap q [.enq a] (q ++ [a])
  | deq {q : List α} (a : α) : Step cap (a :: q) [.deq a] q
  | full {q : List α} (h : q.length = cap) : Step cap q [.full] q
  | empty : Step cap [] [.empty] []
  | size (q : List α) : Step cap q [.size q.length] q

/-- The bounded FIFO, initially empty. -/
def lts (α : Type) (cap : Nat) : Lts (List α) (Event α) where
  Init q := q = []
  Step := Step cap

@[simp] theorem enqs_nil : enqs ([] : List (Event α)) = [] := rfl
@[simp] theorem deqs_nil : deqs ([] : List (Event α)) = [] := rfl

theorem enqs_append (es fs : List (Event α)) : enqs (es ++ fs) = enqs es ++ enqs fs :=
  List.filterMap_append

theorem deqs_append (es fs : List (Event α)) : deqs (es ++ fs) = deqs es ++ deqs fs :=
  List.filterMap_append

/-- One step keeps the account of the values: removed, then stored, is inserted. -/
theorem step_conserved {cap : Nat} {q q' : List α} {e : List (Event α)}
    (h : Step cap q e q') (hq : q.length ≤ cap) :
    deqs e ++ q' = q ++ enqs e ∧ q'.length ≤ cap := by
  cases h with
  | enq a hlt =>
      refine ⟨rfl, ?_⟩
      rw [List.length_append, List.length_singleton]
      omega
  | deq a =>
      refine ⟨(List.append_nil _).symm, ?_⟩
      rw [List.length_cons] at hq
      omega
  | full _ => exact ⟨(List.append_nil q).symm, hq⟩
  | empty => exact ⟨rfl, hq⟩
  | size _ => exact ⟨(List.append_nil q).symm, hq⟩

/-- **Conservation.** In every run the values removed followed by the values stored are the
values inserted, in order, and the queue never holds more than its capacity. -/
theorem run_conserved {cap : Nat} {es : List (Event α)} {q : List α}
    (r : Run (lts α cap) es q) : deqs es ++ q = enqs es ∧ q.length ≤ cap := by
  refine Run.invariant (I := fun es q => deqs es ++ q = enqs es ∧ q.length ≤ cap) ?_ ?_ r
  · rintro s rfl
    exact ⟨rfl, Nat.zero_le cap⟩
  · rintro es s e t ⟨hval, hlen⟩ hstep
    obtain ⟨hv, hl⟩ := step_conserved hstep hlen
    refine ⟨?_, hl⟩
    rw [deqs_append, enqs_append, List.append_assoc, hv, ← List.append_assoc, hval]

/-! ## Refusals and size queries -/

theorem full_length {cap : Nat} {q q' : List α} (h : Step cap q [.full] q') :
    q.length = cap := by
  cases h with
  | full h => exact h

theorem empty_eq_nil {cap : Nat} {q q' : List α} (h : Step cap q [.empty] q') : q = [] := by
  cases h with
  | empty => rfl

/-- Whether the removing side has seen a positive size since its last removal or refusal. -/
def promise (b : Bool) : Event α → Bool
  | .size n => decide (0 < n)
  | .deq _ => false
  | .empty => false
  | _ => b

def promised (es : List (Event α)) : Bool := es.foldl promise false

theorem promised_append (es : List (Event α)) (e : Event α) :
    promised (es ++ [e]) = promise (promised es) e := by
  simp [promised]

/-- **A positive size is a promise.** After it, and until the next removal or refusal, the
queue is not empty, whatever is inserted in between. -/
theorem run_promised {cap : Nat} {es : List (Event α)} {q : List α}
    (r : Run (lts α cap) es q) : promised es = true → q ≠ [] := by
  refine Run.invariant (I := fun es q => promised es = true → q ≠ []) ?_ ?_ r
  · intro s _ h
    cases h
  · intro es s e t ih hstep
    cases hstep with
    | enq a _ => intro _; simp
    | deq a => intro h; rw [promised_append] at h; cases h
    | full _ => intro h; rw [promised_append] at h; exact ih h
    | empty => intro h; rw [promised_append] at h; cases h
    | size _ =>
        intro h
        rw [promised_append] at h
        have hpos : 0 < s.length := by simpa [promise] using h
        exact List.ne_nil_of_length_pos hpos

/-- The values removed are an initial segment of the values inserted. -/
theorem run_deqs_initial {cap : Nat} {es : List (Event α)} {q : List α}
    (r : Run (lts α cap) es q) : deqs es <+: enqs es :=
  ⟨q, (run_conserved r).1⟩

end Fifo
