import Mathlib.Algebra.Group.Int.Defs
import Mathlib.Algebra.Group.Nat.Defs
import Mathlib.Data.Int.Basic

set_option autoImplicit false

/-! # Signed arithmetic that notices overflow

Addition and subtraction of signed 64-bit numbers where the exact result has to be representable.
A computation that goes through computes the exact result; `add?_one` and `sub?_of_lt` say when the
two that occur most do go through. `toInt_eq_or` relates the number to the unsigned one with the
same bits. -/

namespace Checked

/-- `x + y`, unless it overflows. -/
def add? (x y : Int64) : Option Int64 :=
  if x.toBitVec.saddOverflow y.toBitVec then none else some (x + y)

/-- `x - y`, unless it overflows. -/
def sub? (x y : Int64) : Option Int64 :=
  if x.toBitVec.ssubOverflow y.toBitVec then none else some (x - y)

variable {x y z : Int64}

/-- The exact result is representable. -/
def Fits (i : Int) : Prop := -2 ^ 63 ≤ i ∧ i < 2 ^ 63

theorem saddOverflow_iff : x.toBitVec.saddOverflow y.toBitVec = true ↔
    ¬ Fits (x.toInt + y.toInt) := by
  have hdef : x.toBitVec.saddOverflow y.toBitVec
      = (decide (x.toInt + y.toInt ≥ 2 ^ 63) || decide (x.toInt + y.toInt < -2 ^ 63)) := rfl
  rw [hdef, Bool.or_eq_true, decide_eq_true_iff, decide_eq_true_iff, Fits]
  omega

theorem ssubOverflow_iff : x.toBitVec.ssubOverflow y.toBitVec = true ↔
    ¬ Fits (x.toInt - y.toInt) := by
  have hdef : x.toBitVec.ssubOverflow y.toBitVec
      = (decide (x.toInt - y.toInt ≥ 2 ^ 63) || decide (x.toInt - y.toInt < -2 ^ 63)) := rfl
  rw [hdef, Bool.or_eq_true, decide_eq_true_iff, decide_eq_true_iff, Fits]
  omega

theorem add?_of_fits (h : Fits (x.toInt + y.toInt)) : add? x y = some (x + y) :=
  if_neg fun hover => saddOverflow_iff.mp hover h

/-- What goes through is exact. -/
theorem toInt_add_of_fits (h : Fits (x.toInt + y.toInt)) : (x + y).toInt = x.toInt + y.toInt := by
  rw [Int64.toInt_add]
  exact Int.bmod_eq_of_le h.1 (by have := h.2; omega)

theorem add?_of_not_fits (h : ¬ Fits (x.toInt + y.toInt)) : add? x y = none :=
  if_pos (saddOverflow_iff.mpr h)

theorem sub?_of_fits (h : Fits (x.toInt - y.toInt)) : sub? x y = some (x - y) :=
  if_neg fun hover => ssubOverflow_iff.mp hover h

theorem sub?_of_not_fits (h : ¬ Fits (x.toInt - y.toInt)) : sub? x y = none :=
  if_pos (ssubOverflow_iff.mpr h)

/-- What goes through is exact. -/
theorem toInt_sub_of_fits (h : Fits (x.toInt - y.toInt)) : (x - y).toInt = x.toInt - y.toInt := by
  rw [Int64.toInt_sub]
  exact Int.bmod_eq_of_le h.1 (by have := h.2; omega)

/-- Only the largest number has no successor. -/
theorem add?_one (x : Int64) :
    add? x 1 = if x.toInt = 2 ^ 63 - 1 then none else some (x + 1) := by
  have hlo := x.le_toInt
  have hhi := x.toInt_lt
  have hone : (1 : Int64).toInt = 1 := Int64.toInt_one
  split
  next h =>
    refine add?_of_not_fits fun hfits => ?_
    have := hfits.2
    omega
  next h => exact add?_of_fits ⟨by omega, by omega⟩

/-- A positive difference may be too large. -/
theorem sub?_of_lt (h : y.toInt < x.toInt) :
    sub? x y = if x.toInt - y.toInt < 2 ^ 63 then some (x - y) else none := by
  split
  next hlt => exact sub?_of_fits ⟨by omega, hlt⟩
  next hge => exact sub?_of_not_fits fun hfits => hge hfits.2

/-- The two readings of 64 bits. -/
theorem toInt_eq_or (x : Int64) :
    (x.toUInt64.toNat < 2 ^ 63 ∧ x.toInt = x.toUInt64.toNat) ∨
      (2 ^ 63 ≤ x.toUInt64.toNat ∧ x.toInt = (x.toUInt64.toNat : Int) - 2 ^ 64) := by
  have hcond : x.toInt = if 2 * x.toUInt64.toNat < 2 ^ 64 then (x.toUInt64.toNat : Int)
      else (x.toUInt64.toNat : Int) - (2 ^ 64 : Nat) := BitVec.toInt_eq_toNat_cond _
  split at hcond
  · exact Or.inl ⟨by omega, hcond⟩
  · exact Or.inr ⟨by omega, hcond⟩

/-- The conversion to an unsigned number takes the value modulo `2 ^ 64`. -/
theorem ofInt_toInt (x : Int64) : UInt64.ofInt x.toInt = x.toUInt64 := by
  have hsize := x.toUInt64.toNat_lt
  have hmod : (x.toInt % 2 ^ 64).toNat = x.toUInt64.toNat := by
    obtain ⟨-, hx⟩ | ⟨-, hx⟩ := toInt_eq_or x <;> omega
  rw [← UInt64.toNat_inj, UInt64.ofInt, hmod, UInt64.toNat_ofNat']
  exact Nat.mod_eq_of_lt hsize

end Checked
