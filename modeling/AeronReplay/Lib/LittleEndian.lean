import Mathlib.Algebra.Group.Nat.Defs
import Mathlib.Data.List.Basic

set_option autoImplicit false

/-! # Little-endian numbers and packed records

Numbers as byte strings, lowest byte first, and the fields of a record whose members follow
each other without gaps. A record is built with `encode` and `++` and read with `field`, at the
offsets of the members; `field_here` and `field_skip` compute what a field of a built record
is, `encode_field` is the way back. -/

namespace LittleEndian

/-- The low `k` bytes of `n`, lowest first. -/
def encode : Nat → Nat → List UInt8
  | 0, _ => []
  | k + 1, n => UInt8.ofNat n :: encode k (n / 256)

def decode : List UInt8 → Nat
  | [] => 0
  | b :: bs => b.toNat + 256 * decode bs

@[simp] theorem length_encode (k n : Nat) : (encode k n).length = k := by
  induction k generalizing n with
  | zero => rfl
  | succ k ih => rw [encode, List.length_cons, ih]

theorem decode_encode (k n : Nat) : decode (encode k n) = n % 256 ^ k := by
  induction k generalizing n with
  | zero => rw [Nat.pow_zero, Nat.mod_one]; rfl
  | succ k ih =>
      rw [encode, decode, ih, Nat.pow_succ', Nat.mod_mul]
      rfl

theorem encode_decode (bs : List UInt8) : encode bs.length (decode bs) = bs := by
  induction bs with
  | nil => rfl
  | cons b bs ih =>
      have hb := b.toNat_lt
      have hlow : UInt8.ofNat (b.toNat + 256 * decode bs) = b := by
        apply UInt8.toNat_inj.mp
        show (b.toNat + 256 * decode bs) % 256 = b.toNat
        omega
      have hhigh : (b.toNat + 256 * decode bs) / 256 = decode bs := by omega
      rw [List.length_cons, encode, decode, hlow, hhigh, ih]

/-- Encoding cuts a number off by itself. -/
theorem encode_mod (k n : Nat) : encode k (n % 256 ^ k) = encode k n := by
  have h := encode_decode (encode k n)
  rwa [length_encode, decode_encode] at h

/-! ## Fields of a packed record -/

/-- The `k`-byte number at offset `off`. -/
def field (off k : Nat) (bs : List UInt8) : Nat := decode ((bs.drop off).take k)

theorem field_here (k n : Nat) (bs : List UInt8) : field 0 k (encode k n ++ bs) = n % 256 ^ k := by
  rw [field, List.drop_zero, List.take_left' (length_encode k n), decode_encode]

/-- The last field of a record. -/
theorem field_last (k n : Nat) : field 0 k (encode k n) = n % 256 ^ k := by
  have h := field_here k n []
  rwa [List.append_nil] at h

theorem field_skip {k off : Nat} (h : k ≤ off) (k' n : Nat) (bs : List UInt8) :
    field off k' (encode k n ++ bs) = field (off - k) k' bs := by
  rw [field, field, List.drop_append, length_encode,
    List.drop_eq_nil_of_le (by rw [length_encode]; exact h), List.nil_append]

/-- Encoding a field again gives back its bytes. -/
theorem encode_field {off k : Nat} {bs : List UInt8} (h : off + k ≤ bs.length) :
    encode k (field off k bs) = (bs.drop off).take k := by
  have hlen : ((bs.drop off).take k).length = k := by
    rw [List.length_take, List.length_drop]
    omega
  have hback := encode_decode ((bs.drop off).take k)
  rwa [hlen] at hback

/-- The bytes of a field, and what stands after it. -/
theorem encode_field_append {off k : Nat} {bs : List UInt8} (h : off + k ≤ bs.length) :
    encode k (field off k bs) ++ bs.drop (off + k) = bs.drop off := by
  rw [encode_field h, ← List.drop_drop, List.take_append_drop]

/-- A field does not depend on the bytes around it. -/
theorem field_modify {off k i : Nat} (h : i < off ∨ off + k ≤ i) (f : UInt8 → UInt8)
    (bs : List UInt8) : field off k (bs.modify i f) = field off k bs := by
  unfold field
  congr 1
  refine List.ext_getElem? fun j => ?_
  rw [List.getElem?_take, List.getElem?_take, List.getElem?_drop, List.getElem?_drop]
  by_cases hj : j < k
  · rw [if_pos hj, if_pos hj, List.getElem?_modify_ne _ _ (by omega)]
  · rw [if_neg hj, if_neg hj]

/-- A field tells the bytes that it is made of. -/
theorem getElem?_eq_of_field {off k i : Nat} {bs cs : List UInt8} (hb : off + k ≤ bs.length)
    (hc : off + k ≤ cs.length) (hfield : field off k bs = field off k cs) (hlow : off ≤ i)
    (hhigh : i < off + k) : bs[i]? = cs[i]? := by
  have hbytes : (bs.drop off).take k = (cs.drop off).take k := by
    rw [← encode_field hb, ← encode_field hc, hfield]
  have hi := congrArg (·[i - off]?) hbytes
  simp only [List.getElem?_take, List.getElem?_drop] at hi
  rwa [if_pos (by omega), if_pos (by omega), Nat.add_sub_cancel' hlow] at hi

end LittleEndian
