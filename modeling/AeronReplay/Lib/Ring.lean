import Mathlib.Data.List.Basic
import Mathlib.Data.List.Range
import Mathlib.Data.Nat.ModEq
import Mathlib.Logic.Function.Basic

set_option autoImplicit false

/-! # Circular buffers with a power-of-two size

An array of `2 ^ log` slots indexed by machine words of 64 bits. Masking an index with
`size - 1` is reduction modulo the size, also after an addition or a subtraction that wraps
around the machine word. `view buf N h k` lists the `k` slots from index `h` on, cyclically. -/

namespace Ring

/-- The number of values of a machine word. -/
def word : Nat := 2 ^ 64

/-- A power of two of at least `2` that a machine word can hold. -/
structure Size where
  log : Nat
  pos : 1 ≤ log
  lt : log < 64

def Size.val (N : Size) : Nat := 2 ^ N.log

theorem Size.two_le (N : Size) : 2 ≤ N.val :=
  Nat.pow_le_pow_right (n := 2) (by omega) N.pos

theorem Size.val_pos (N : Size) : 0 < N.val := by
  have := N.two_le
  omega

theorem Size.dvd_word (N : Size) : N.val ∣ word :=
  Nat.pow_dvd_pow 2 (Nat.le_of_lt N.lt)

/-! ## Masks -/

theorem and_mask (N : Size) (x : Nat) : x &&& (N.val - 1) = x % N.val :=
  Nat.and_two_pow_sub_one_eq_mod x N.log

/-- Wrapping around the word does not change an index modulo the size. -/
theorem mod_word_mod (N : Size) (x : Nat) : x % word % N.val = x % N.val :=
  Nat.mod_mod_of_dvd x N.dvd_word

theorem mod_of_wrapped {x n : Nat} (hle : n ≤ x) (hlt : x < n + n) : x % n = x - n := by
  rw [Nat.mod_eq_sub_mod hle, Nat.mod_eq_of_lt (by omega)]

/-- The masked difference of two indices, taken modulo the word, is their cyclic distance. -/
theorem masked_sub (N : Size) (h k : Nat) (hh : h < N.val) (hk : k < N.val) :
    ((h + k) % N.val + word - h) % word &&& (N.val - 1) = k := by
  rw [and_mask, mod_word_mod]
  obtain ⟨c, hc⟩ := N.dvd_word
  have hc1 : 1 ≤ c := by
    rcases Nat.eq_zero_or_pos c with rfl | h
    · simp [word] at hc
    · exact h
  obtain ⟨d, rfl⟩ : ∃ d, c = d + 1 := ⟨c - 1, by omega⟩
  rw [hc, Nat.mul_succ]
  by_cases hw : h + k < N.val
  · have hsub : h + k + (N.val * d + N.val) - h = k + N.val * (d + 1) := by
      rw [Nat.mul_succ]
      omega
    rw [Nat.mod_eq_of_lt hw, hsub, Nat.add_mul_mod_self_left, Nat.mod_eq_of_lt hk]
  · have hmod : (h + k) % N.val = h + k - N.val := mod_of_wrapped (by omega) (by omega)
    have hsub : h + k - N.val + (N.val * d + N.val) - h = k + N.val * d := by omega
    rw [hmod, hsub, Nat.add_mul_mod_self_left, Nat.mod_eq_of_lt hk]

/-- The cyclic distance by cases on the order of the two indices. -/
theorem dist_by_cases {n h k : Nat} (hh : h < n) (hk : k < n) :
    (if h ≤ (h + k) % n then (h + k) % n - h else n - h + (h + k) % n) = k := by
  by_cases hw : h + k < n
  · rw [Nat.mod_eq_of_lt hw, if_pos (by omega)]
    omega
  · rw [mod_of_wrapped (by omega) (by omega), if_neg (by omega)]
    omega

/-- Two offsets below the size lead to two slots. -/
theorem slot_ne {n h i j : Nat} (hi : i < n) (hj : j < n) (hij : i ≠ j) :
    (h + i) % n ≠ (h + j) % n := by
  intro heq
  have hmod : i % n = j % n := Nat.ModEq.add_left_cancel' h heq
  rw [Nat.mod_eq_of_lt hi, Nat.mod_eq_of_lt hj] at hmod
  exact hij hmod

/-! ## The stored values -/

variable {α : Type}

/-- The `k` values stored from slot `h` on, in cyclic order. -/
def view (buf : Nat → α) (n h k : Nat) : List α :=
  (List.range k).map fun i => buf ((h + i) % n)

@[simp] theorem view_zero (buf : Nat → α) (n h : Nat) : view buf n h 0 = [] := rfl

@[simp] theorem view_length (buf : Nat → α) (n h k : Nat) : (view buf n h k).length = k := by
  simp [view]

theorem view_succ (buf : Nat → α) (n h k : Nat) :
    view buf n h (k + 1) = view buf n h k ++ [buf ((h + k) % n)] := by
  simp [view, List.range_succ]

theorem view_cons (buf : Nat → α) {n h : Nat} (hh : h < n) (k : Nat) :
    view buf n h (k + 1) = buf h :: view buf n ((h + 1) % n) k := by
  rw [view, List.range_succ_eq_map, List.map_cons, List.map_map, Nat.add_zero,
    Nat.mod_eq_of_lt hh]
  refine congrArg _ (List.map_congr_left fun i _ => ?_)
  show buf ((h + (i + 1)) % n) = buf (((h + 1) % n + i) % n)
  rw [Nat.mod_add_mod]
  congr 2
  omega

/-- Writing a slot that is not among the `k` viewed ones does not change the view. -/
theorem view_update_of_ne (buf : Nat → α) {n h k j : Nat} (a : α)
    (hj : ∀ i, i < k → (h + i) % n ≠ j) :
    view (Function.update buf j a) n h k = view buf n h k := by
  refine List.map_congr_left fun i hi => ?_
  exact Function.update_of_ne (hj i (List.mem_range.mp hi)) _ _

/-- Writing the slot after the viewed ones appends the written value to the view. -/
theorem view_push (buf : Nat → α) {n h k : Nat} (a : α) (hk : k < n) :
    view (Function.update buf ((h + k) % n) a) n h (k + 1) = view buf n h k ++ [a] := by
  rw [view_succ, Function.update_self, view_update_of_ne]
  intro i hi
  exact slot_ne (by omega) hk (by omega)

/-- Writing the first slot does not change the view from the second one on. -/
theorem view_update_head (buf : Nat → α) {n h k : Nat} (a : α) (hh : h < n) (hk : k < n) :
    view (Function.update buf h a) n ((h + 1) % n) k = view buf n ((h + 1) % n) k := by
  refine view_update_of_ne buf a fun i hi => ?_
  have hne := slot_ne (h := h) (show 1 + i < n by omega) (show 0 < n by omega) (by omega)
  rwa [Nat.add_zero, Nat.mod_eq_of_lt hh, ← Nat.add_assoc, ← Nat.mod_add_mod] at hne

end Ring
