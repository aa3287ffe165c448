import AeronReplay.Lib.Transition
import Mathlib.Data.List.Count

set_option autoImplicit false

/-! # Loops around a compare-exchange

Any number of threads share a variable. A thread loads it, computes a new value and stores that
with a compare-exchange, which fails and loads the variable again if it does not have the expected
value any more; a weak compare-exchange may also fail for no reason.

`failures_le` is what makes such a loop lock-free: in whatever stretch of a run, a thread fails at
most once more than the other threads succeed. As long as a thread keeps failing, others make
progress. -/

namespace CompareExchange

open Transition

variable {τ V : Type} [DecidableEq τ]

/-- The variable, and what each thread in the loop expects it to be. -/
structure State (τ V : Type) where
  value : V
  expected : τ → Option V

inductive Event (τ : Type) where
  | succeeded (t : τ)
  | failed (t : τ)
  /-- Failed although the variable has the expected value. -/
  | spurious (t : τ)
  deriving DecidableEq

inductive Step (s : State τ V) : List (Event τ) → State τ V → Prop
  | load (t : τ) :
      Step s [] { s with expected := Function.update s.expected t (some s.value) }
  | leave (t : τ) : Step s [] { s with expected := Function.update s.expected t none }
  | succeed (t : τ) (new : V) (h : s.expected t = some s.value) :
      Step s [.succeeded t] ⟨new, Function.update s.expected t none⟩
  | fail (t : τ) {v : V} (h : s.expected t = some v) (hchanged : v ≠ s.value) :
      Step s [.failed t] { s with expected := Function.update s.expected t (some s.value) }
  | spurious (t : τ) (h : s.expected t = some s.value) : Step s [.spurious t] s

def system (τ V : Type) [DecidableEq τ] : Lts (State τ V) (Event τ) where
  Init s := ∀ t, s.expected t = none
  Step := Step

/-! ## Who pays for a failure -/

/-- The thread expects a value that the variable does not have any more. -/
def State.Stale (s : State τ V) (t : τ) : Prop := ∃ v, s.expected t = some v ∧ v ≠ s.value

/-- The failures of the thread. -/
def failures (es : List (Event τ)) (t : τ) : Nat := es.count (.failed t)

/-- The successes of the other threads. -/
def othersSuccesses (es : List (Event τ)) (t : τ) : Nat := es.countP fun
  | .succeeded u => u ≠ t
  | _ => false

variable {s s' : State τ V} {es e : List (Event τ)}

/-- What a thread's failures have come to: at most one of them is not paid for, and if another one
is due, none. -/
structure Paid (es : List (Event τ)) (s : State τ V) (t : τ) : Prop where
  failures : failures es t ≤ othersSuccesses es t + 1
  stale : s.Stale t → CompareExchange.failures es t ≤ othersSuccesses es t

theorem failures_append (es e : List (Event τ)) (t : τ) :
    failures (es ++ e) t = failures es t + failures e t :=
  List.count_append

theorem othersSuccesses_append (es e : List (Event τ)) (t : τ) :
    othersSuccesses (es ++ e) t = othersSuccesses es t + othersSuccesses e t :=
  List.countP_append

/-- What another thread expects does not make a thread stale, and a thread that has just loaded
or left is not. -/
theorem Stale.of_update {u t : τ} {x : Option V} (hx : ∀ v, x = some v → v = s.value)
    (h : ({ s with expected := Function.update s.expected u x } : State τ V).Stale t) :
    s.Stale t := by
  obtain ⟨v, hv, hne⟩ := h
  dsimp only at hv
  by_cases htu : t = u
  · subst htu
    rw [Function.update_self] at hv
    exact absurd (hx v hv) hne
  · rw [Function.update_of_ne htu] at hv
    exact ⟨v, hv, hne⟩

theorem Paid.step {t : τ} (hs : Paid es s t) (h : Step s e s') : Paid (es ++ e) s' t := by
  obtain ⟨hfailures, hstale⟩ := hs
  have hquiet : e = [] ∨ (∃ u, e = [.spurious u]) → (s'.Stale t → s.Stale t) →
      Paid (es ++ e) s' t := by
    intro he hback
    have hnone : CompareExchange.failures e t = 0 ∧ othersSuccesses e t = 0 := by
      obtain rfl | ⟨u, rfl⟩ := he <;> exact ⟨rfl, rfl⟩
    refine ⟨?_, fun h => ?_⟩
    · rw [failures_append, othersSuccesses_append, hnone.1, hnone.2]
      exact hfailures
    · rw [failures_append, othersSuccesses_append, hnone.1, hnone.2]
      exact hstale (hback h)
  cases h with
  | load u => exact hquiet (.inl rfl) (Stale.of_update fun v hv => (Option.some.inj hv).symm)
  | leave u => exact hquiet (.inl rfl) (Stale.of_update nofun)
  | spurious u => exact hquiet (.inr ⟨u, rfl⟩) id
  | succeed u new h =>
      have hnone : CompareExchange.failures [Event.succeeded u] t = 0 := rfl
      by_cases htu : t = u
      · -- the thread itself has left the loop
        subst htu
        refine ⟨?_, fun ⟨v, hv, _⟩ => ?_⟩
        · rw [failures_append, othersSuccesses_append, hnone]
          omega
        · dsimp only at hv
          rw [Function.update_self] at hv
          cases hv
      · have hone : othersSuccesses [Event.succeeded u] t = 1 := by
          simp [othersSuccesses, Ne.symm htu]
        refine ⟨?_, fun _ => ?_⟩
        · rw [failures_append, othersSuccesses_append, hnone, hone]
          omega
        · rw [failures_append, othersSuccesses_append, hnone, hone]
          exact hfailures
  | fail u h hchanged =>
      have hnone : othersSuccesses [Event.failed u] t = 0 := rfl
      by_cases htu : t = u
      · -- the failure is due, and after it the thread knows the value
        subst htu
        have hdue := hstale ⟨_, h, hchanged⟩
        have hone : CompareExchange.failures [Event.failed t] t = 1 := by
          simp [CompareExchange.failures]
        refine ⟨?_, fun ⟨v, hv, hne⟩ => ?_⟩
        · rw [failures_append, othersSuccesses_append, hnone, hone]
          omega
        · dsimp only at hv
          rw [Function.update_self] at hv
          exact absurd (Option.some.inj hv).symm hne
      · have hzero : CompareExchange.failures [Event.failed u] t = 0 := by
          simp [CompareExchange.failures, Ne.symm htu]
        refine ⟨?_, fun h => ?_⟩
        · rw [failures_append, othersSuccesses_append, hnone, hzero]
          exact hfailures
        · rw [failures_append, othersSuccesses_append, hnone, hzero]
          exact hstale (Stale.of_update (fun v hv => (Option.some.inj hv).symm) h)

/-- **Lock-freedom.** In any stretch of a run a thread fails at most once more than the other
threads succeed. -/
theorem failures_le (q : Steps (system τ V) s es s') (t : τ) :
    failures es t ≤ othersSuccesses es t + 1 :=
  (q.invariant (I := fun es s => Paid es s t) (fun _ _ _ _ hs h => hs.step h)
    ⟨Nat.zero_le _, fun _ => Nat.zero_le _⟩).failures

end CompareExchange
