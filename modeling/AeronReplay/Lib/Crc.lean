import Mathlib.Data.List.Basic
import Mathlib.Logic.Function.Iterate

set_option autoImplicit false

/-! # Reflected CRC registers

A cyclic redundancy check in its reflected, bit-by-bit form, for any register width `w` and
generator `poly` (bit `w - 1 - i` of `poly` is the coefficient of `X ^ i`). The register is
linear in exclusive or, and for a generator with constant term `1` a shift of the register loses
nothing. Together they give `run_eq_iff`: replacing a stretch of a message leaves the register
unchanged exactly when the difference of the two stretches, taken alone, has residue `0`.
`bits_eight` is the byte-wise form that table-driven implementations use, `run_eq_serial` the
bit-by-bit form of the standards. A difference no longer than the register never has residue
`0` (`residue_eq_zero`). -/

namespace Crc

variable {w : Nat}

/-- One bit of the register: shift right, and subtract the generator if a `1` falls out. -/
def bit (poly x : BitVec w) : BitVec w :=
  (x >>> 1) ^^^ (if x.getLsbD 0 then poly else 0)

/-- `n` bits of the register. -/
def bits (poly : BitVec w) (n : Nat) (x : BitVec w) : BitVec w := (bit poly)^[n] x

/-- Take in one byte, lowest bit first. -/
def byte (poly crc : BitVec w) (b : BitVec 8) : BitVec w :=
  bits poly 8 (crc ^^^ b.setWidth w)

/-- Take in a message. -/
def run (poly crc : BitVec w) (bs : List (BitVec 8)) : BitVec w := bs.foldl (byte poly) crc

/-- The residue of a message: the register it leaves behind when started at `0`. A message
whose residue is `0` is a multiple of the generator. -/
def residue (poly : BitVec w) (bs : List (BitVec 8)) : BitVec w := run poly 0 bs

/-- The bytewise difference of two messages. -/
def diff (bs cs : List (BitVec 8)) : List (BitVec 8) := List.zipWith (· ^^^ ·) bs cs

variable (poly : BitVec w)

/-! ## Linearity -/

theorem bit_xor (x y : BitVec w) : bit poly (x ^^^ y) = bit poly x ^^^ bit poly y := by
  unfold bit
  rw [BitVec.getLsbD_xor, BitVec.ushiftRight_xor_distrib]
  cases x.getLsbD 0 <;> cases y.getLsbD 0
  · simp
  · simp [BitVec.xor_assoc]
  · simp only [Bool.xor_false, if_true, Bool.false_eq_true, if_false, BitVec.ofNat_eq_ofNat,
      BitVec.xor_zero]
    ac_rfl
  · have hcancel : x >>> 1 ^^^ poly ^^^ (y >>> 1 ^^^ poly) = x >>> 1 ^^^ y >>> 1 := by
      rw [BitVec.xor_assoc, ← BitVec.xor_assoc poly, BitVec.xor_comm poly, BitVec.xor_assoc _ poly,
        BitVec.xor_self, BitVec.xor_zero]
    simp [hcancel]

theorem bits_xor (n : Nat) (x y : BitVec w) :
    bits poly n (x ^^^ y) = bits poly n x ^^^ bits poly n y := by
  induction n generalizing x y with
  | zero => rfl
  | succ n ih =>
      simp only [bits, Function.iterate_succ_apply] at ih ⊢
      rw [bit_xor, ih]

theorem byte_xor (x y : BitVec w) (b c : BitVec 8) :
    byte poly (x ^^^ y) (b ^^^ c) = byte poly x b ^^^ byte poly y c := by
  unfold byte
  rw [← bits_xor, BitVec.setWidth_xor]
  congr 1
  ac_rfl

/-- The register of a bytewise difference is the difference of the registers. -/
theorem run_xor : ∀ (bs cs : List (BitVec 8)) (x y : BitVec w), bs.length = cs.length →
    run poly (x ^^^ y) (diff bs cs) = run poly x bs ^^^ run poly y cs
  | [], [], _, _, _ => rfl
  | b :: bs, c :: cs, x, y, h => by
      show run poly (byte poly (x ^^^ y) (b ^^^ c)) (diff bs cs) = _
      rw [byte_xor]
      exact run_xor bs cs _ _ (Nat.succ.inj h)
  | [], _ :: _, _, _, h => by cases h
  | _ :: _, [], _, _, h => by cases h

theorem run_append (x : BitVec w) (bs cs : List (BitVec 8)) :
    run poly x (bs ++ cs) = run poly (run poly x bs) cs := List.foldl_append

theorem diff_self (bs : List (BitVec 8)) : diff bs bs = List.replicate bs.length 0 := by
  induction bs with
  | nil => rfl
  | cons b bs ih =>
      show (b ^^^ b) :: diff bs bs = _
      rw [ih, BitVec.xor_self]
      rfl

/-! ## A shift loses nothing -/

theorem bit_eq_zero (hpoly : poly.getLsbD (w - 1) = true) {x : BitVec w}
    (h : bit poly x = 0) : x = 0 := by
  have hw : 0 < w := by
    by_contra hw
    rw [BitVec.getLsbD_of_ge poly (w - 1) (by omega)] at hpoly
    cases hpoly
  have hbits : ∀ i, ((x >>> 1) ^^^ (if x.getLsbD 0 then poly else 0)).getLsbD i = false := by
    intro i
    rw [← bit, h]
    simp
  have hlow : x.getLsbD 0 = false := by
    by_contra hlow
    rw [Bool.not_eq_false] at hlow
    -- the top bit after the shift comes from the generator alone
    have htop := hbits (w - 1)
    rw [if_pos hlow, BitVec.getLsbD_xor, BitVec.getLsbD_ushiftRight, hpoly,
      BitVec.getLsbD_of_ge x (1 + (w - 1)) (by omega)] at htop
    cases htop
  refine BitVec.eq_of_getLsbD_eq fun i _ => ?_
  show x.getLsbD i = (0#w).getLsbD i
  rw [BitVec.getLsbD_zero]
  cases i with
  | zero => exact hlow
  | succ i =>
      have hi := hbits i
      rw [hlow, BitVec.getLsbD_xor, BitVec.getLsbD_ushiftRight, Nat.add_comm 1 i] at hi
      simpa using hi

theorem bits_eq_zero (hpoly : poly.getLsbD (w - 1) = true) {n : Nat} {x : BitVec w}
    (h : bits poly n x = 0) : x = 0 := by
  induction n generalizing x with
  | zero => exact h
  | succ n ih =>
      rw [bits, Function.iterate_succ_apply] at h
      exact bit_eq_zero poly hpoly (ih h)

/-- Zero bytes neither hide nor create a difference. -/
theorem run_zeros_eq_zero (hpoly : poly.getLsbD (w - 1) = true) {n : Nat} {x : BitVec w} :
    run poly x (List.replicate n 0) = 0 ↔ x = 0 := by
  have hzero : byte poly (0 : BitVec w) 0 = 0 := by
    have hself := byte_xor poly (0 : BitVec w) 0 0 0
    simpa using hself
  induction n generalizing x with
  | zero => exact Iff.rfl
  | succ n ih =>
      show run poly (byte poly x 0) (List.replicate n 0) = 0 ↔ x = 0
      refine ih.trans ?_
      constructor
      · intro h
        have := bits_eq_zero poly hpoly h
        simpa using this
      · rintro rfl
        exact hzero

/-- Replacing the stretch `bs` of a message by `cs` changes the register by the residue of the
difference, moved on by what follows. -/
theorem run_replace (x : BitVec w) (pre bs cs post : List (BitVec 8))
    (hlen : bs.length = cs.length) :
    run poly x (pre ++ bs ++ post) ^^^ run poly x (pre ++ cs ++ post)
      = run poly (residue poly (diff bs cs)) (List.replicate post.length 0) := by
  calc run poly x (pre ++ bs ++ post) ^^^ run poly x (pre ++ cs ++ post)
      = run poly (run poly (run poly x pre) bs) post
          ^^^ run poly (run poly (run poly x pre) cs) post := by
        rw [run_append, run_append, run_append, run_append]
    _ = run poly (run poly (run poly x pre) bs ^^^ run poly (run poly x pre) cs)
          (diff post post) := (run_xor poly post post _ _ rfl).symm
    _ = run poly (run poly (run poly x pre ^^^ run poly x pre) (diff bs cs))
          (diff post post) := by rw [run_xor poly bs cs _ _ hlen]
    _ = run poly (residue poly (diff bs cs)) (List.replicate post.length 0) := by
        rw [BitVec.xor_self, diff_self]
        rfl

/-- **A replaced stretch goes unnoticed exactly when its difference has residue `0`**, whatever
stands before and after it. -/
theorem run_eq_iff (hpoly : poly.getLsbD (w - 1) = true) (x : BitVec w)
    (pre bs cs post : List (BitVec 8)) (hlen : bs.length = cs.length) :
    run poly x (pre ++ bs ++ post) = run poly x (pre ++ cs ++ post) ↔
      residue poly (diff bs cs) = 0 := by
  have hzeros : run poly (residue poly (diff bs cs)) (List.replicate post.length 0) = 0 ↔ _ :=
    run_zeros_eq_zero poly hpoly
  rw [← hzeros, ← run_replace poly x pre bs cs post hlen]
  exact BitVec.xor_eq_zero_iff.symm

/-! ## The byte-wise form -/

/-- A register whose low `n` bits are `0` only moves down through `n` bits. -/
theorem bits_of_low_zero : ∀ (n : Nat) (x : BitVec w), (∀ i, i < n → x.getLsbD i = false) →
    bits poly n x = x >>> n
  | 0, x, _ => by simp [bits]
  | n + 1, x, h => by
      have hbit : bit poly x = x >>> 1 := by simp [bit, h 0 (by omega)]
      have hlow : ∀ i, i < n → (x >>> 1).getLsbD i = false := by
        intro i hi
        rw [BitVec.getLsbD_ushiftRight]
        exact h (1 + i) (by omega)
      rw [bits, Function.iterate_succ_apply, hbit]
      show bits poly n (x >>> 1) = _
      rw [bits_of_low_zero n _ hlow, ← BitVec.shiftRight_add, Nat.add_comm 1 n]

/-- The low byte of the register. -/
def low (x : BitVec w) : BitVec 8 := x.setWidth 8

/-- A byte disappears when eight bits are shifted out. -/
theorem shift_byte (b : BitVec 8) : b.setWidth w >>> 8 = 0#w := by
  refine BitVec.eq_of_getLsbD_eq fun i _ => ?_
  rw [BitVec.getLsbD_ushiftRight, BitVec.getLsbD_setWidth,
    BitVec.getLsbD_of_ge b (8 + i) (by omega), Bool.and_false, BitVec.getLsbD_zero]

theorem shift_xor_byte (x : BitVec w) (b : BitVec 8) :
    (x ^^^ b.setWidth w) >>> 8 = x >>> 8 := by
  rw [BitVec.ushiftRight_xor_distrib, shift_byte, BitVec.xor_zero]

/-- **Eight bits at once**: shift a byte out and look up what the low byte contributes. -/
theorem bits_eight (x : BitVec w) :
    bits poly 8 x = (x >>> 8) ^^^ bits poly 8 ((low x).setWidth w) := by
  have hhigh : ∀ i, i < 8 → (x ^^^ (low x).setWidth w).getLsbD i = false := by
    intro i hi
    rw [BitVec.getLsbD_xor, BitVec.getLsbD_setWidth, low, BitVec.getLsbD_setWidth]
    by_cases hw : i < w
    · simp [hi, hw]
    · simp [BitVec.getLsbD_of_ge x i (by omega)]
  have hsplit : x = (x ^^^ (low x).setWidth w) ^^^ (low x).setWidth w := by
    rw [BitVec.xor_assoc, BitVec.xor_self, BitVec.xor_zero]
  calc bits poly 8 x
      = bits poly 8 ((x ^^^ (low x).setWidth w) ^^^ (low x).setWidth w) := by rw [← hsplit]
    _ = bits poly 8 (x ^^^ (low x).setWidth w) ^^^ bits poly 8 ((low x).setWidth w) :=
        bits_xor poly 8 _ _
    _ = (x >>> 8) ^^^ bits poly 8 ((low x).setWidth w) := by
        rw [bits_of_low_zero poly 8 _ hhigh, shift_xor_byte]

/-! ## Bit by bit -/

/-- Take in one bit of a message: shift right, and subtract the generator if the bit that falls
out differs from the bit of the message. -/
def serialBit (poly crc : BitVec w) (b : Bool) : BitVec w :=
  (crc >>> 1) ^^^ (if crc.getLsbD 0 ^^ b then poly else 0)

/-- Take in a message bit by bit. -/
def serial (poly crc : BitVec w) (m : List Bool) : BitVec w := m.foldl (serialBit poly) crc

/-- The low `n` bits of a word, lowest first. -/
def lowBits {v : Nat} (n : Nat) (y : BitVec v) : List Bool := (List.range n).map y.getLsbD

/-- The bits of a byte string, every byte lowest bit first. -/
def bitsOf (bs : List (BitVec 8)) : List Bool := bs.flatMap (lowBits 8)

theorem lowBits_succ {v : Nat} (n : Nat) (y : BitVec v) :
    lowBits (n + 1) y = y.getLsbD 0 :: lowBits n (y >>> 1) := by
  unfold lowBits
  rw [List.range_succ_eq_map, List.map_cons, List.map_map]
  congr 1
  refine List.map_congr_left fun i _ => ?_
  rw [BitVec.getLsbD_ushiftRight, Nat.add_comm 1 i]
  rfl

/-- A bit that is already in the register acts as a bit of the message. -/
theorem bit_xor_eq_serialBit (x y : BitVec w) :
    bit poly (x ^^^ y) = serialBit poly x (y.getLsbD 0) ^^^ (y >>> 1) := by
  unfold bit serialBit
  rw [BitVec.getLsbD_xor, BitVec.ushiftRight_xor_distrib]
  ac_rfl

theorem bits_xor_eq_serial (n : Nat) (x y : BitVec w) :
    bits poly n (x ^^^ y) = serial poly x (lowBits n y) ^^^ (y >>> n) := by
  induction n generalizing x y with
  | zero => simp [bits, serial, lowBits]
  | succ n ih =>
      rw [bits, Function.iterate_succ_apply, bit_xor_eq_serialBit, ← bits, ih, lowBits_succ,
        ← BitVec.shiftRight_add, Nat.add_comm 1 n]
      rfl

theorem lowBits_setWidth {n : Nat} (hw : n ≤ w) {v : Nat} (y : BitVec v) :
    lowBits n (y.setWidth w) = lowBits n y := by
  refine List.map_congr_left fun i hi => ?_
  have hiw : i < w := Nat.lt_of_lt_of_le (List.mem_range.mp hi) hw
  rw [BitVec.getLsbD_setWidth, decide_eq_true hiw, Bool.true_and]

/-- **The byte-wise register takes in the bits of a message one after the other.** -/
theorem run_eq_serial (hw : 8 ≤ w) (bs : List (BitVec 8)) (x : BitVec w) :
    run poly x bs = serial poly x (bitsOf bs) := by
  induction bs generalizing x with
  | nil => rfl
  | cons b bs ih =>
      have hbyte : byte poly x b = serial poly x (lowBits 8 b) := by
        rw [byte, bits_xor_eq_serial, shift_byte, BitVec.xor_zero, lowBits_setWidth hw]
      show run poly (byte poly x b) bs = serial poly x (lowBits 8 b ++ bitsOf bs)
      rw [ih, hbyte, serial, serial, serial, List.foldl_append]

/-! ## Bursts -/

/-- A message no longer than the register is the register's own contents. -/
theorem exists_lowBits_eq {m : List Bool} (hlen : m.length ≤ w) :
    ∃ y : BitVec w, lowBits m.length y = m ∧ y >>> m.length = 0#w := by
  refine ⟨(BitVec.ofBoolListLE m).setWidth w, ?_, ?_⟩
  · rw [lowBits_setWidth hlen]
    refine List.ext_getElem? fun i => ?_
    by_cases hi : i < m.length
    · have hbit : (BitVec.ofBoolListLE m)[i] = m[i] := by
        rw [← BitVec.getLsbD_eq_getElem, BitVec.getLsbD_ofBoolListLE,
          List.getD_eq_getElem?_getD, List.getElem?_eq_getElem hi, Option.getD_some]
      simp [lowBits, hi, hbit]
    · simp [lowBits, hi]
  · refine BitVec.eq_of_getLsbD_eq fun i _ => ?_
    rw [BitVec.getLsbD_ushiftRight, BitVec.getLsbD_setWidth, BitVec.getLsbD_ofBoolListLE,
      List.getD_eq_getElem?_getD, List.getElem?_eq_none (Nat.le_add_right _ _),
      Option.getD_none, Bool.and_false, BitVec.getLsbD_zero]

/-- A difference no longer than the register has residue `0` only if there is none. -/
theorem serial_eq_zero (hpoly : poly.getLsbD (w - 1) = true) {m : List Bool}
    (hlen : m.length ≤ w) (h : serial poly 0 m = 0) : ∀ b ∈ m, b = false := by
  obtain ⟨y, hm, hy⟩ := exists_lowBits_eq hlen
  have hbits : bits poly m.length y = 0 := by
    have hxor := bits_xor_eq_serial poly m.length 0 y
    rw [hm, h, hy] at hxor
    simpa using hxor
  obtain rfl := bits_eq_zero poly hpoly hbits
  intro b hb
  rw [← hm, lowBits, List.mem_map] at hb
  obtain ⟨i, -, rfl⟩ := hb
  exact BitVec.getLsbD_zero

theorem eq_zero_of_lowBits {b : BitVec 8} (h : ∀ x ∈ lowBits 8 b, x = false) : b = 0 := by
  refine BitVec.eq_of_getLsbD_eq fun i hi => ?_
  rw [h _ (List.mem_map.mpr ⟨i, List.mem_range.mpr hi, rfl⟩)]
  exact BitVec.getLsbD_zero.symm

/-- **Every burst no longer than the register is noticed.** -/
theorem residue_eq_zero (hpoly : poly.getLsbD (w - 1) = true) {bs : List (BitVec 8)}
    (hlen : 8 * bs.length ≤ w) (h : residue poly bs = 0) : ∀ b ∈ bs, b = 0 := by
  intro b hb
  have hpos := List.length_pos_of_mem hb
  have hbits : (bitsOf bs).length = 8 * bs.length := by
    simp [bitsOf, lowBits, List.length_flatMap, Nat.mul_comm]
  rw [residue, run_eq_serial poly (by omega)] at h
  refine eq_zero_of_lowBits fun x hx => ?_
  exact serial_eq_zero poly hpoly (by rw [hbits]; exact hlen) h x
    (List.mem_flatMap.mpr ⟨b, hb, hx⟩)

end Crc
