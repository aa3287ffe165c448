import AeronReplay.Message.Buffer
import Mathlib.Data.Finset.Card

set_option autoImplicit false

/-! # The message worker

The steps of `MessageWorker::workerThreadMain` that judge a dequeued message
(`MessageWorker.cpp`): validation, which is switched off, and the set of sequence numbers seen
so far, which is emptied when it outgrows its limit. -/

namespace AeronReplay.MessageWorker

/-- `validateMessage`. The checks are commented out in the source; only a null pointer is
refused. -/
def validateMessage (buf : Option MessageBuffer) : Bool :=
  match buf with
  | none => false
  | some _ => true

/-- The size at which `seen_sequences_` is cleared. -/
def seenLimit : Nat := 1000000

/-- `checkDuplicate` of a sequence number. -/
def checkSequence (seen_sequences_ : Finset UInt64) (seq : UInt64) : Bool × Finset UInt64 :=
  if seq ∈ seen_sequences_ then (true, seen_sequences_)
  else
    let seen_sequences_ := insert seq seen_sequences_
    if seenLimit < seen_sequences_.card then (false, ∅) else (false, seen_sequences_)

def checkDuplicate (seen_sequences_ : Finset UInt64) (buf : MessageBuffer) :
    Bool × Finset UInt64 :=
  checkSequence seen_sequences_ buf.header.sequence_number

/-- A message is taken for a duplicate exactly when its number is in the set. -/
theorem checkSequence_duplicate (seen : Finset UInt64) (seq : UInt64) :
    (checkSequence seen seq).1 = true ↔ seq ∈ seen := by
  unfold checkSequence
  by_cases h : seq ∈ seen
  · simp [h]
  · simp only [h, if_false, iff_false]
    split <;> simp

/-- The set only ever holds numbers it held before and the number just checked. -/
theorem checkSequence_subset (seen : Finset UInt64) (seq : UInt64) :
    (checkSequence seen seq).2 ⊆ insert seq seen := by
  unfold checkSequence
  by_cases h : seq ∈ seen
  · rw [if_pos h]
    exact Finset.subset_insert _ _
  · rw [if_neg h]
    dsimp only
    split
    · exact Finset.empty_subset _
    · exact Finset.Subset.refl _

end AeronReplay.MessageWorker
