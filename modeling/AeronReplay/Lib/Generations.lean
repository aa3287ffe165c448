import Mathlib.Data.Finset.Card
import Mathlib.Data.List.Induction

set_option autoImplicit false

/-! # A filter that forgets in generations

A filter lets through what is not in its set of seen elements and adds it to the set. When the
set has grown past a limit it is emptied at once, the new element included. What the filter has
let through is thereby cut into generations of `limit + 1` elements each: within a generation
nothing is let through twice (`next_generation`), and nothing is turned away but what its own
generation has let through (`filter_current`). If there are few enough different elements, nothing
is ever forgotten (`mem_seen_of_few`). -/

namespace Generations

variable {α : Type} [DecidableEq α]

/-- Whether the element has been seen, and the set afterwards. -/
def check (limit : Nat) (seen : Finset α) (a : α) : Bool × Finset α :=
  if a ∈ seen then (true, seen)
  else
    let seen := insert a seen
    if limit < seen.card then (false, ∅) else (false, seen)

/-- The set, and what has been let through. -/
structure Filter (α : Type) where
  seen : Finset α
  passed : List α

def Filter.next (limit : Nat) (x : Filter α) (a : α) : Filter α :=
  let (old, seen) := check limit x.seen a
  { seen := seen
    passed := if old then x.passed else x.passed ++ [a] }

def filter (limit : Nat) (as : List α) : Filter α := as.foldl (Filter.next limit) ⟨∅, []⟩

/-- The generation of the element at a position. -/
def generation (limit i : Nat) : Nat := i / (limit + 1)

/-- The elements of the last generation, which is not yet full. -/
def current (limit : Nat) (as : List α) : List α :=
  as.drop (generation limit as.length * (limit + 1))

variable {limit : Nat} {as : List α} {a : α}

theorem filter_snoc (limit : Nat) (as : List α) (a : α) :
    filter limit (as ++ [a]) = (filter limit as).next limit a :=
  List.foldl_append

/-! ## The generation under way -/

omit [DecidableEq α] in
theorem length_current (limit : Nat) (as : List α) :
    (current limit as).length = as.length % (limit + 1) := by
  have hsplit := Nat.div_add_mod as.length (limit + 1)
  rw [Nat.mul_comm] at hsplit
  rw [current, generation, List.length_drop]
  omega

omit [DecidableEq α] in
theorem length_current_le (limit : Nat) (as : List α) : (current limit as).length ≤ limit := by
  rw [length_current]
  exact Nat.le_of_lt_succ (Nat.mod_lt _ (Nat.succ_pos limit))

omit [DecidableEq α] in
/-- One more element belongs to the generation under way, or completes it. -/
theorem current_snoc (as : List α) (a : α) :
    current limit (as ++ [a])
      = if (current limit as).length = limit then [] else current limit as ++ [a] := by
  have hlen := length_current limit as
  have hsplit := Nat.div_add_mod as.length (limit + 1)
  rw [Nat.mul_comm] at hsplit
  have hsucc : (as ++ [a]).length = as.length + 1 := List.length_append
  by_cases hfull : (current limit as).length = limit
  · have hnext : (as.length + 1) / (limit + 1) * (limit + 1) = as.length + 1 := by
      have hdvd : limit + 1 ∣ as.length + 1 := ⟨as.length / (limit + 1) + 1, by
        rw [Nat.mul_comm, Nat.add_mul]
        omega⟩
      exact Nat.div_mul_cancel hdvd
    rw [if_pos hfull, current, generation, hsucc, hnext]
    exact List.drop_eq_nil_of_le (Nat.le_of_eq hsucc)
  · have hsame : (as.length + 1) / (limit + 1) = as.length / (limit + 1) := by
      have hlt : as.length % (limit + 1) < limit + 1 := Nat.mod_lt _ (Nat.succ_pos limit)
      refine Nat.div_eq_of_lt_le (by omega) ?_
      rw [Nat.add_mul]
      omega
    rw [if_neg hfull, current, generation, hsucc, hsame, current, generation]
    exact List.drop_append_of_le_length (by omega)

/-! ## What the set holds -/

/-- A check with a set that is not over its limit. -/
theorem check_new (hnew : a ∉ (current limit as)) (hnodup : (current limit as).Nodup) :
    check limit (current limit as).toFinset a = (false, (current limit (as ++ [a])).toFinset) := by
  have hmem : a ∉ (current limit as).toFinset := fun h => hnew (List.mem_toFinset.mp h)
  have hcard : (insert a (current limit as).toFinset).card = (current limit as).length + 1 := by
    rw [Finset.card_insert_of_notMem hmem, List.toFinset_card_of_nodup hnodup]
  have hle := length_current_le limit as
  rw [check, if_neg hmem, current_snoc]
  dsimp only
  rw [hcard]
  by_cases hfull : (current limit as).length = limit
  · rw [if_pos hfull, if_pos (by omega)]
    rfl
  · rw [if_neg hfull, if_neg (by omega)]
    rw [List.toFinset_append, List.toFinset_cons, List.toFinset_nil, Finset.union_comm]
    rfl

/-- **The set holds the generation under way**, without repeats. -/
theorem filter_current (limit : Nat) (as : List α) :
    (filter limit as).seen = (current limit (filter limit as).passed).toFinset ∧
      (current limit (filter limit as).passed).Nodup := by
  induction as using List.reverseRecOn with
  | nil => exact ⟨by simp [filter, current], by simp [filter, current]⟩
  | append_singleton as a ih =>
      obtain ⟨hseen, hnodup⟩ := ih
      rw [filter_snoc, Filter.next, hseen]
      by_cases hold : a ∈ current limit (filter limit as).passed
      · rw [check, if_pos (List.mem_toFinset.mpr hold)]
        exact ⟨rfl, hnodup⟩
      · rw [check_new hold hnodup]
        refine ⟨rfl, ?_⟩
        show (current limit ((filter limit as).passed ++ [a])).Nodup
        rw [current_snoc]
        split
        · exact List.nodup_nil
        · refine List.nodup_append.mpr ⟨hnodup, List.nodup_singleton a, ?_⟩
          rintro x hx y hy rfl
          exact hold (List.mem_singleton.mp hy ▸ hx)

/-- What becomes of one more element. -/
theorem passed_snoc (as : List α) (a : α) :
    (filter limit (as ++ [a])).passed
      = if a ∈ current limit (filter limit as).passed then (filter limit as).passed
        else (filter limit as).passed ++ [a] := by
  obtain ⟨hseen, hnodup⟩ := filter_current limit as
  rw [filter_snoc, Filter.next, hseen]
  by_cases hold : a ∈ current limit (filter limit as).passed
  · rw [check, if_pos (List.mem_toFinset.mpr hold), if_pos hold]
    rfl
  · rw [check_new hold hnodup, if_neg hold]
    rfl

/-! ## What is let through -/

/-- Equal elements belong to different generations. -/
def Apart (limit : Nat) (as : List α) : Prop :=
  ∀ i j a, i < j → as[i]? = some a → as[j]? = some a → generation limit i < generation limit j

omit [DecidableEq α] in
theorem Apart.snoc (h : Apart limit as) (hnew : a ∉ current limit as) :
    Apart limit (as ++ [a]) := by
  intro i j x hij hi hj
  obtain ⟨hjlt, -⟩ := List.getElem?_eq_some_iff.mp hj
  rw [List.length_append, List.length_singleton] at hjlt
  rw [List.getElem?_append_left (by omega)] at hi
  by_cases hlast : j < as.length
  · rw [List.getElem?_append_left hlast] at hj
    exact h i j x hij hi hj
  · obtain rfl : j = as.length := by omega
    rw [List.getElem?_concat_length] at hj
    obtain rfl := Option.some.inj hj
    -- an equal element at a position of the last generation would have been seen
    by_contra hsame
    have hle : generation limit as.length ≤ generation limit i := Nat.le_of_not_lt hsame
    have hstart : generation limit as.length * (limit + 1) ≤ i :=
      calc generation limit as.length * (limit + 1)
          ≤ i / (limit + 1) * (limit + 1) := Nat.mul_le_mul_right _ hle
        _ ≤ i := Nat.div_mul_le_self i (limit + 1)
    refine hnew (List.mem_of_getElem? (i := i - generation limit as.length * (limit + 1)) ?_)
    rw [current, List.getElem?_drop, Nat.add_sub_cancel' hstart]
    exact hi

/-- **Nothing is let through twice within a generation.** -/
theorem next_generation (limit : Nat) (as : List α) : Apart limit (filter limit as).passed := by
  induction as using List.reverseRecOn with
  | nil =>
      intro i j x _ hi
      cases hi
  | append_singleton as a ih =>
      rw [passed_snoc]
      split
      · exact ih
      · next hnew => exact ih.snoc hnew

/-- Every element has been let through at some time. -/
theorem mem_passed (limit : Nat) (ha : a ∈ as) : a ∈ (filter limit as).passed := by
  induction as using List.reverseRecOn with
  | nil => cases ha
  | append_singleton as b ih =>
      rw [passed_snoc]
      rcases List.mem_append.mp ha with ha | ha
      · split
        · exact ih ha
        · exact List.mem_append_left _ (ih ha)
      · obtain rfl := List.mem_singleton.mp ha
        split
        · next hold => exact List.mem_of_mem_drop hold
        · exact List.mem_append_right _ (List.mem_singleton_self a)

/-! ## Few elements -/

theorem passed_sublist (limit : Nat) (as : List α) : (filter limit as).passed.Sublist as := by
  induction as using List.reverseRecOn with
  | nil => exact .refl _
  | append_singleton as a ih =>
      rw [passed_snoc]
      split
      · exact ih.trans (List.sublist_append_left _ _)
      · exact ih.append (.refl _)

/-- If there are not more different elements than the limit, the first generation is under way. -/
theorem current_of_few (hfew : as.toFinset.card ≤ limit) :
    current limit (filter limit as).passed = (filter limit as).passed := by
  induction as using List.reverseRecOn with
  | nil => exact List.drop_nil
  | append_singleton as a ih =>
      have hsubset : as.toFinset ⊆ (as ++ [a]).toFinset := by
        rw [List.toFinset_append]
        exact Finset.subset_union_left
      have hcurrent := ih ((Finset.card_le_card hsubset).trans hfew)
      have hnodup := hcurrent ▸ (filter_current limit as).2
      have hlength : (filter limit as).passed.length = as.toFinset.card := by
        rw [← List.toFinset_card_of_nodup hnodup]
        congr 1
        ext x
        rw [List.mem_toFinset, List.mem_toFinset]
        exact ⟨fun h => (passed_sublist limit as).subset h, mem_passed limit⟩
      rw [passed_snoc, hcurrent]
      split
      · exact hcurrent
      · next hnew =>
          have hcard : as.toFinset.card < (as ++ [a]).toFinset.card := by
            refine Finset.card_lt_card ⟨hsubset, fun h => hnew (mem_passed limit ?_)⟩
            exact List.mem_toFinset.mp (h (by simp))
          rw [current_snoc, hcurrent, hlength, if_neg (by omega)]

/-- Of few elements the filter knows all that it has been given. -/
theorem mem_seen_of_few (hfew : as.toFinset.card ≤ limit) :
    a ∈ (filter limit as).seen ↔ a ∈ as := by
  rw [(filter_current limit as).1, current_of_few hfew, List.mem_toFinset]
  exact ⟨fun h => (passed_sublist limit as).subset h, mem_passed limit⟩

end Generations
