import Mathlib.Data.List.Basic

set_option autoImplicit false

/-! # Transition systems whose steps emit events

A concurrent program is modelled as a set of initial states and a step relation; one step is
one atomic access of one thread. A step emits the list of events an observer sees, usually
none or one, so that a property of a whole run is a property of the events emitted so far
and of the state reached.

* `Run` is the set of runs from an initial state and `Steps` a run between two given states.
* `RunWhere` restricts a run to steps that meet a condition on the history and on the step, and
  `Lts.only` a system to steps that meet a condition on the state and on the events.
* `Run.invariant`, `RunWhere.invariant` and `Steps.invariant` are the induction rules: what
  holds initially and is preserved by a step holds along a run.
* `forall_split_snoc`, `forall_split_cons` and `forall_split_append` take a property of every event
  and its past one event, or several events, at a time; `forall_after_append` does so with what
  comes after an event.
* `Simulation.run` is forward simulation: every run of the concrete system is, event for
  event, a run of the abstract one.
-/

namespace Transition

/-- A transition system over states `σ` whose steps emit events of type `ε`. -/
structure Lts (σ ε : Type) where
  Init : σ → Prop
  Step : σ → List ε → σ → Prop

variable {σ τ ε ε' : Type}

/-! ## Runs -/

/-- `Run M es s`: some run of `M` from an initial state emits `es` and ends in `s`. -/
inductive Run (M : Lts σ ε) : List ε → σ → Prop
  | init {s : σ} (h : M.Init s) : Run M [] s
  | step {es e : List ε} {s t : σ} (r : Run M es s) (h : M.Step s e t) : Run M (es ++ e) t

/-- A condition on a step: the events before it, the state before it, the events it emits and
the state after it. -/
abbrev Guard (σ ε : Type) := List ε → σ → List ε → σ → Prop

/-- A run all of whose steps meet the condition `C`. -/
inductive RunWhere (M : Lts σ ε) (C : Guard σ ε) : List ε → σ → Prop
  | init {s : σ} (h : M.Init s) : RunWhere M C [] s
  | step {es e : List ε} {s t : σ} (r : RunWhere M C es s) (h : M.Step s e t)
      (c : C es s e t) : RunWhere M C (es ++ e) t

/-- `Steps M s es t`: `M` goes from `s` to `t` in some number of steps, emitting `es`. -/
inductive Steps (M : Lts σ ε) : σ → List ε → σ → Prop
  | refl (s : σ) : Steps M s [] s
  | tail {es e : List ε} {s t u : σ} (r : Steps M s es t) (h : M.Step t e u) :
      Steps M s (es ++ e) u

/-- A step that emits nothing extends a run without changing its events. -/
theorem Run.silent {M : Lts σ ε} {es : List ε} {s t : σ} (r : Run M es s)
    (h : M.Step s [] t) : Run M es t := by
  have := Run.step r h
  rwa [List.append_nil] at this

theorem Run.trans {M : Lts σ ε} {es fs : List ε} {s t : σ} (r : Run M es s)
    (q : Steps M s fs t) : Run M (es ++ fs) t := by
  induction q with
  | refl => rwa [List.append_nil]
  | tail _ h ih =>
      rw [← List.append_assoc]
      exact .step (ih r) h

theorem Steps.trans {M : Lts σ ε} {es fs : List ε} {s t u : σ} (p : Steps M s es t)
    (q : Steps M t fs u) : Steps M s (es ++ fs) u := by
  induction q with
  | refl => rwa [List.append_nil]
  | tail _ h ih =>
      rw [← List.append_assoc]
      exact .tail (ih p) h

/-- The system `M`, as far as its steps meet `P`: a condition on the state before a step and the
events it emits. -/
def Lts.only (M : Lts σ ε) (P : σ → List ε → Prop) : Lts σ ε where
  Init := M.Init
  Step s e t := M.Step s e t ∧ P s e

theorem Run.of_only {M : Lts σ ε} {P : σ → List ε → Prop} {es : List ε} {s : σ}
    (r : Run (M.only P) es s) : Run M es s := by
  induction r with
  | init h => exact .init h
  | step _ h ih => exact ih.step h.1

/-! ## Histories -/

/-- What holds of every event and the events before it, one event at a time. -/
theorem forall_split_snoc {P : List ε → ε → Prop} (es : List ε) (e : ε) :
    (∀ before x after, es ++ [e] = before ++ x :: after → P before x) ↔
      (∀ before x after, es = before ++ x :: after → P before x) ∧ P es e := by
  constructor
  · intro h
    exact ⟨fun xs x ys hsplit => h xs x (ys ++ [e]) (by rw [hsplit]; simp), h es e [] rfl⟩
  · rintro ⟨hbefore, hlast⟩ xs x ys hsplit
    rcases List.eq_nil_or_concat ys with rfl | ⟨zs, z, rfl⟩
    · obtain ⟨rfl, hx⟩ := List.append_inj' hsplit rfl
      exact (List.cons.inj hx).1 ▸ hlast
    · rw [List.concat_eq_append, ← List.cons_append, ← List.append_assoc] at hsplit
      exact hbefore xs x zs (List.append_inj' hsplit rfl).1

/-- The same from the front. -/
theorem forall_split_cons {P : List ε → ε → Prop} {es : List ε} {e : ε} (hfirst : P [] e)
    (hrest : ∀ before x after, es = before ++ x :: after → P (e :: before) x) :
    ∀ before x after, e :: es = before ++ x :: after → P before x := by
  intro before x after hsplit
  cases before with
  | nil =>
      obtain ⟨rfl, -⟩ := List.cons.inj hsplit
      exact hfirst
  | cons y before =>
      obtain ⟨rfl, hbefore⟩ := List.cons.inj hsplit
      exact hrest before x after hbefore

theorem forall_split_nil {P : List ε → ε → Prop} :
    ∀ before x after, ([] : List ε) = before ++ x :: after → P before x := by
  intro before x after hsplit
  exact absurd hsplit (by simp)

/-- What holds of every event and its past, continued by several events. -/
theorem forall_split_append {P : List ε → ε → Prop} {es e : List ε}
    (hbefore : ∀ before x after, es = before ++ x :: after → P before x)
    (hnew : ∀ before x after, e = before ++ x :: after → P (es ++ before) x) :
    ∀ before x after, es ++ e = before ++ x :: after → P before x := by
  intro before x after hsplit
  rcases List.append_eq_append_iff.mp hsplit with ⟨mid, rfl, rfl⟩ | ⟨mid, rfl, hmid⟩
  · exact hnew mid x after rfl
  · rcases mid with _ | ⟨y, mid⟩
    · have := hnew [] x after hmid.symm
      rwa [List.append_nil, List.append_nil] at this
    · obtain ⟨rfl, -⟩ := List.cons.inj hmid
      exact hbefore before x mid rfl

/-- What holds of the events after every occurrence of an event, continued by several events. -/
theorem forall_after_append {P : List ε → Prop} {x : ε} {es e : List ε}
    (hbefore : ∀ before after, es = before ++ x :: after → P (after ++ e))
    (hnew : ∀ before after, e = before ++ x :: after → P after) :
    ∀ before after, es ++ e = before ++ x :: after → P after := by
  intro before after hsplit
  rcases List.append_eq_append_iff.mp hsplit with ⟨mid, rfl, hmid⟩ | ⟨mid, hmid, he⟩
  · exact hnew mid after hmid
  · rcases mid with _ | ⟨y, mid⟩
    · exact hnew [] after he.symm
    · obtain ⟨rfl, rfl⟩ := List.cons.inj he
      exact hbefore before mid hmid

/-! ## Invariants -/

theorem Run.invariant {M : Lts σ ε} {I : List ε → σ → Prop}
    (init : ∀ s, M.Init s → I [] s)
    (step : ∀ es s e t, I es s → M.Step s e t → I (es ++ e) t)
    {es : List ε} {s : σ} (r : Run M es s) : I es s := by
  induction r with
  | init h => exact init _ h
  | step _ h ih => exact step _ _ _ _ ih h

theorem RunWhere.invariant {M : Lts σ ε} {C : Guard σ ε} {I : List ε → σ → Prop}
    (init : ∀ s, M.Init s → I [] s)
    (step : ∀ es s e t, I es s → M.Step s e t → C es s e t → I (es ++ e) t)
    {es : List ε} {s : σ} (r : RunWhere M C es s) : I es s := by
  induction r with
  | init h => exact init _ h
  | step _ h c ih => exact step _ _ _ _ ih h c

/-- Where `C` implies `D` on every step from a state that satisfies an invariant, which the two
together preserve, a run that meets `C` meets `D`. -/
theorem RunWhere.transfer {M : Lts σ ε} {C D : Guard σ ε} {I : List ε → σ → Prop}
    (init : ∀ s, M.Init s → I [] s)
    (step : ∀ es s e t, I es s → M.Step s e t → C es s e t → D es s e t ∧ I (es ++ e) t)
    {es : List ε} {s : σ} (r : RunWhere M C es s) : RunWhere M D es s ∧ I es s := by
  induction r with
  | init h => exact ⟨.init h, init _ h⟩
  | step _ h c ih =>
      obtain ⟨hD, hI⟩ := step _ _ _ _ ih.2 h c
      exact ⟨.step ih.1 h hD, hI⟩

/-- What is weaker on every step of the system is met by more runs. -/
theorem RunWhere.mono {M : Lts σ ε} {C D : Guard σ ε}
    (hCD : ∀ es s e t, M.Step s e t → C es s e t → D es s e t)
    {es : List ε} {s : σ} (r : RunWhere M C es s) : RunWhere M D es s :=
  (r.transfer (I := fun _ _ => True) (fun _ _ => trivial)
    fun _ _ _ _ _ h c => ⟨hCD _ _ _ _ h c, trivial⟩).1

/-- What one step preserves, a run between two states preserves; the history starts with the
first of the two. -/
theorem Steps.invariant {M : Lts σ ε} {I : List ε → σ → Prop}
    (step : ∀ es s e t, I es s → M.Step s e t → I (es ++ e) t)
    {s t : σ} {es : List ε} (q : Steps M s es t) (h : I [] s) : I es t := by
  induction q with
  | refl => exact h
  | tail _ hs ih => exact step _ _ _ _ (ih h) hs

/-! ## Forward simulation -/

/-- `R` is a forward simulation of `M` by `N` through the observation `obs` of events: every
step of `M` is matched by a step of `N` with the observed events, or, where the step shows
nothing, by `N` standing still. -/
structure Simulation (M : Lts σ ε) (N : Lts τ ε') (obs : ε → Option ε')
    (R : σ → τ → Prop) : Prop where
  init : ∀ s, M.Init s → ∃ t, N.Init t ∧ R s t
  step : ∀ s t e s', R s t → M.Step s e s' →
    ∃ t', R s' t' ∧ (N.Step t (e.filterMap obs) t' ∨ e.filterMap obs = [] ∧ t' = t)

theorem Simulation.run {M : Lts σ ε} {N : Lts τ ε'} {obs : ε → Option ε'}
    {R : σ → τ → Prop} (H : Simulation M N obs R) {es : List ε} {s : σ} (r : Run M es s) :
    ∃ t, R s t ∧ Run N (es.filterMap obs) t := by
  induction r with
  | init h =>
      obtain ⟨t, ht, hR⟩ := H.init _ h
      exact ⟨t, hR, .init ht⟩
  | step _ h ih =>
      obtain ⟨t, hR, hr⟩ := ih
      obtain ⟨t', hR', hstep | ⟨hnil, rfl⟩⟩ := H.step _ _ _ _ hR h
      · refine ⟨t', hR', ?_⟩
        rw [List.filterMap_append]
        exact .step hr hstep
      · refine ⟨t', hR', ?_⟩
        rwa [List.filterMap_append, hnil, List.append_nil]

/-- A simulation can be followed from any two related states. -/
theorem Simulation.steps {M : Lts σ ε} {N : Lts τ ε'} {obs : ε → Option ε'}
    {R : σ → τ → Prop} (H : Simulation M N obs R) {es : List ε} {s s' : σ} {t : τ} (hR : R s t)
    (q : Steps M s es s') : ∃ t', R s' t' ∧ Steps N t (es.filterMap obs) t' := by
  induction q with
  | refl => exact ⟨t, hR, .refl t⟩
  | tail _ h ih =>
      obtain ⟨u, hu, q⟩ := ih hR
      obtain ⟨u', hu', hstep | ⟨hnil, rfl⟩⟩ := H.step _ _ _ _ hu h
      · refine ⟨u', hu', ?_⟩
        rw [List.filterMap_append]
        exact q.tail hstep
      · refine ⟨u', hu', ?_⟩
        rwa [List.filterMap_append, hnil, List.append_nil]

end Transition
