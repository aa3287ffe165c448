import AeronReplay.Lib.Transition

set_option autoImplicit false

/-! # Extensions of a transition system

A system that does more than another one: its states have a part `base` that is a state of the
other system, and some of its events are events of the other system.

* `Extension.run`: if every step of the larger system does to the base what some steps of the
  smaller one do, then every run of the larger system is one of the smaller one, so that what is
  proved about the smaller system holds of the base of the larger one.
* `Conservative.run_iff`: if moreover the larger system never keeps its base from taking a step,
  then the smaller system has exactly the runs of the larger one, what is added being forgotten.
  What is added can then neither be noticed nor be blamed.
-/

namespace Transition

variable {σ τ ε ε' : Type}

/-- `M` extends `N`: what it does to its `base` and shows through `obs`, `N` can do. -/
structure Extension (M : Lts σ ε) (N : Lts τ ε') (base : σ → τ) (obs : ε → Option ε') : Prop where
  init : ∀ s, M.Init s → N.Init (base s)
  step : ∀ s e s', M.Step s e s' → Steps N (base s) (e.filterMap obs) (base s')

/-- A step is a run of length one. -/
theorem Steps.single {M : Lts σ ε} {e : List ε} {s t : σ} (h : M.Step s e t) : Steps M s e t := by
  have := (Steps.refl s).tail h
  rwa [List.nil_append] at this

section Runs

variable {M : Lts σ ε} {N : Lts τ ε'} {base : σ → τ} {obs : ε → Option ε'}

theorem Extension.steps (H : Extension M N base obs) {es : List ε} {s t : σ}
    (q : Steps M s es t) : Steps N (base s) (es.filterMap obs) (base t) := by
  induction q with
  | refl s => exact .refl _
  | tail _ h ih =>
      rw [List.filterMap_append]
      exact ih.trans (H.step _ _ _ h)

theorem Extension.run (H : Extension M N base obs) {es : List ε} {s : σ} (r : Run M es s) :
    Run N (es.filterMap obs) (base s) := by
  induction r with
  | init h => exact .init (H.init _ h)
  | step _ h ih =>
      rw [List.filterMap_append]
      exact ih.trans (H.step _ _ _ h)

/-- `M` extends `N` and never keeps the base from taking a step. -/
structure Conservative (M : Lts σ ε) (N : Lts τ ε') (base : σ → τ) (obs : ε → Option ε') : Prop
    extends Extension M N base obs where
  lift_init : ∀ t, N.Init t → ∃ s, M.Init s ∧ base s = t
  lift_step : ∀ es s f t, Run M es s → N.Step (base s) f t →
    ∃ e s', Steps M s e s' ∧ e.filterMap obs = f ∧ base s' = t

/-- Wherever `M` has come to, it can do what its base can do. -/
theorem Conservative.lift_steps (H : Conservative M N base obs) {es : List ε} {s : σ}
    (r : Run M es s) {fs : List ε'} {t : τ} (q : Steps N (base s) fs t) :
    ∃ e s', Steps M s e s' ∧ e.filterMap obs = fs ∧ base s' = t := by
  generalize hs : base s = u at q
  induction q with
  | refl =>
      subst hs
      exact ⟨[], s, .refl s, rfl, rfl⟩
  | tail _ h ih =>
      obtain ⟨e, s', q, rfl, rfl⟩ := ih hs
      obtain ⟨e', s'', q', rfl, rfl⟩ := H.lift_step _ _ _ _ (r.trans q) h
      exact ⟨e ++ e', s'', q.trans q', List.filterMap_append, rfl⟩

/-- **A conservative extension adds and removes no run.** -/
theorem Conservative.run_iff (H : Conservative M N base obs) {fs : List ε'} {t : τ} :
    Run N fs t ↔ ∃ es s, Run M es s ∧ es.filterMap obs = fs ∧ base s = t := by
  constructor
  · intro r
    induction r with
    | init h =>
        obtain ⟨s, hs, rfl⟩ := H.lift_init _ h
        exact ⟨[], s, .init hs, rfl, rfl⟩
    | step _ h ih =>
        obtain ⟨es, s, r, rfl, rfl⟩ := ih
        obtain ⟨e, s', q, rfl, rfl⟩ := H.lift_step _ _ _ _ r h
        exact ⟨es ++ e, s', r.trans q, List.filterMap_append, rfl⟩
  · rintro ⟨es, s, r, rfl, rfl⟩
    exact H.run r

end Runs

end Transition
