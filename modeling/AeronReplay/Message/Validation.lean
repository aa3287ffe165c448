import AeronReplay.Message.Buffer
import AeronReplay.Message.Checksum

set_option autoImplicit false

/-! # What `validate` guards

`validate` tests the constant fields of the header and, where the flags ask for it, the checksum.
`validate_iff` spells this out over the bytes that the checksum covers. From it follow which
corruptions of a checksummed message are noticed, and what an accepted message says about its
length. -/

namespace AeronReplay

open LittleEndian

namespace MessageBuffer

/-- The bytes of the message as it was on the wire. -/
def wireBytes (b : MessageBuffer) : List UInt8 := b.header.toBytes ++ b.payloadBytes

/-- The bytes that the checksum is taken over. -/
def checkedBytes (b : MessageBuffer) : List UInt8 :=
  MessageHeader.clearChecksum b.header.toBytes ++ b.payloadBytes

theorem length_payloadBytes (b : MessageBuffer) :
    b.payloadBytes.length = min b.actual_payload_length.toNat MAX_PAYLOAD_SIZE := by
  rw [payloadBytes, List.length_take, b.payload.length_eq]

/-- A buffer whose length field is within its array has `wireSize()` bytes on the wire. -/
theorem length_wireBytes {b : MessageBuffer}
    (h : b.actual_payload_length.toNat ≤ MAX_PAYLOAD_SIZE) : b.wireBytes.length = b.wireSize := by
  rw [wireBytes, List.length_append, MessageHeader.length_toBytes, length_payloadBytes,
    Nat.min_eq_left h, wireSize]

theorem validate_iff (b : MessageBuffer) :
    b.validate = true ↔ b.header.isValid = true ∧
      ¬ (b.header.version = 0 ∨ b.header.version > 100) ∧
      b.header.message_length.toNat ≤ HEADER_SIZE + MAX_PAYLOAD_SIZE ∧
      (b.header.hasChecksum = true →
        b.header.checksum = ~~~ crc32Run 0xFFFFFFFF b.checkedBytes) := by
  have hcrc : calculateMessageCRC32 b.header b.payload.bytes b.actual_payload_length.toNat
      = ~~~ crc32Run 0xFFFFFFFF b.checkedBytes := calculateMessageCRC32_eq_run _ _ _
  unfold validate
  rw [hcrc]
  cases b.header.isValid
  · simp
  · cases b.header.hasChecksum
    · simp
    · simp

/-! ## Bursts in the payload -/

/-- Two byte strings that agree outside of four places split alike around these places. -/
theorem split_of_agree {bs cs : List UInt8} {off : Nat}
    (h : ∀ i, i < off ∨ off + 4 ≤ i → bs[i]? = cs[i]?) :
    cs = bs.take off ++ (cs.drop off).take 4 ++ (bs.drop off).drop 4 := by
  have hpre : bs.take off = cs.take off := by
    refine List.ext_getElem? fun i => ?_
    rw [List.getElem?_take, List.getElem?_take]
    split
    next hi => exact h i (Or.inl hi)
    · rfl
  have hpost : (bs.drop off).drop 4 = (cs.drop off).drop 4 := by
    refine List.ext_getElem? fun i => ?_
    simp only [List.getElem?_drop]
    exact h _ (Or.inr (by omega))
  rw [hpre, hpost, List.append_assoc, List.take_append_drop, List.take_append_drop]

/-- The register tells such byte strings apart. -/
theorem eq_of_crc32Run_agree (crc : UInt32) (pre : List UInt8) {bs cs : List UInt8} {off : Nat}
    (hlen : bs.length = cs.length) (hagree : ∀ i, i < off ∨ off + 4 ≤ i → bs[i]? = cs[i]?)
    (h : crc32Run crc (pre ++ bs) = crc32Run crc (pre ++ cs)) : bs = cs := by
  have hbs : bs = bs.take off ++ (bs.drop off).take 4 ++ (bs.drop off).drop 4 :=
    split_of_agree fun _ _ => rfl
  have hcs := split_of_agree hagree
  have hassoc (xs : List UInt8) :
      (pre ++ bs.take off) ++ xs ++ (bs.drop off).drop 4
        = pre ++ (bs.take off ++ xs ++ (bs.drop off).drop 4) := by
    simp only [List.append_assoc]
  have hburst : (bs.drop off).take 4 = (cs.drop off).take 4 := by
    refine eq_of_crc32Run_eq crc (pre ++ bs.take off) _ _ ((bs.drop off).drop 4) ?_
      (List.length_take_le _ _) ?_
    · rw [List.length_take, List.length_take, List.length_drop, List.length_drop, hlen]
    · rw [hassoc, hassoc, ← hbs, ← hcs]
      exact h
  rw [hcs, ← hburst]
  exact hbs

/-- **A corruption of the payload within four consecutive bytes is always noticed**, wherever it
is and however long the payload. -/
theorem validate_of_payload_burst (b b' : MessageBuffer) (hsum : b.header.hasChecksum = true)
    (hvalid : b.validate = true) (hheader : b'.header = b.header)
    (hlength : b'.actual_payload_length = b.actual_payload_length)
    (hne : b'.payloadBytes ≠ b.payloadBytes) (off : Nat)
    (hagree : ∀ i, i < off ∨ off + 4 ≤ i → b'.payloadBytes[i]? = b.payloadBytes[i]?) :
    b'.validate = false := by
  rw [Bool.eq_false_iff]
  intro hvalid'
  apply hne
  obtain ⟨-, -, -, hcrc⟩ := (validate_iff b).mp hvalid
  obtain ⟨-, -, -, hcrc'⟩ := (validate_iff b').mp hvalid'
  have hsum' : b'.header.hasChecksum = true := by rw [hheader, hsum]
  have hrun : crc32Run 0xFFFFFFFF b'.checkedBytes = crc32Run 0xFFFFFFFF b.checkedBytes := by
    rw [← UInt32.not_inj, ← hcrc hsum, ← hcrc' hsum', hheader]
  have hlen : b'.payloadBytes.length = b.payloadBytes.length := by
    rw [length_payloadBytes, length_payloadBytes, hlength]
  rw [checkedBytes, checkedBytes, hheader] at hrun
  exact eq_of_crc32Run_agree _ _ hlen hagree hrun

/-- A header with the checksum of a message with the payload `1, 2, 3, 4`. -/
def checksummedHeader : MessageHeader :=
  { MessageHeader.zero with
    magic := .sekr
    version := 1
    message_type := MSG_TEST
    message_length := 68
    flags := FLAG_CHECKSUM_ENABLED
    checksum := 988420477 }

/-- The buffer of a message with that header. -/
def checksummed (payload : List UInt8) : MessageBuffer :=
  MessageBuffer.fresh.copyFromAeron (checksummedHeader.toBytes ++ payload)

theorem checksummed_validate : (checksummed [1, 2, 3, 4]).validate = true := by decide +kernel

/-- One payload byte changed. -/
theorem validate_of_payload_burst_checksummed : (checksummed [1, 2, 3, 5]).validate = false := by
  have hpayload (payload : List UInt8) (h : payload.length ≤ MAX_PAYLOAD_SIZE) :
      (checksummed payload).payloadBytes = payload := payloadBytes_copyFromAeron_of_le _ _ h
  have hheader (payload : List UInt8) : (checksummed payload).header = checksummedHeader :=
    header_copyFromAeron _ _ _
  refine validate_of_payload_burst (checksummed [1, 2, 3, 4]) (checksummed [1, 2, 3, 5]) ?_
    checksummed_validate ?_ rfl ?_ 0 fun i hi => ?_
  · rw [hheader]
    decide
  · rw [hheader, hheader]
  · rw [hpayload _ (by decide), hpayload _ (by decide)]
    decide
  · rw [hpayload _ (by decide), hpayload _ (by decide), List.getElem?_eq_none,
      List.getElem?_eq_none]
    · show 4 ≤ i
      omega
    · show 4 ≤ i
      omega

/-! ## Flipped bits -/

end MessageBuffer

/-- The bytes with bit `j` of byte `k` flipped. -/
def flipBit (bs : List UInt8) (k j : Nat) : List UInt8 := bs.modify k (· ^^^ .ofNat (2 ^ j))

theorem length_flipBit (bs : List UInt8) (k j : Nat) : (flipBit bs k j).length = bs.length :=
  List.length_modify _ _ _

theorem flipBit_take (bs : List UInt8) (n k j : Nat) :
    (flipBit bs k j).take n = flipBit (bs.take n) k j := by
  refine List.ext_getElem? fun i => ?_
  simp only [flipBit, List.getElem?_take, List.getElem?_modify]
  by_cases hi : i < n
  · rw [if_pos hi, if_pos hi]
  · rw [if_neg hi, if_neg hi]
    rfl

theorem flipBit_append_left (cs : List UInt8) (j : Nat) :
    ∀ (bs : List UInt8) (k : Nat), k < bs.length →
      flipBit (bs ++ cs) k j = flipBit bs k j ++ cs
  | _ :: _, 0, _ => rfl
  | b :: bs, k + 1, h =>
      congrArg (b :: ·) (flipBit_append_left cs j bs k (Nat.lt_of_succ_lt_succ h))

theorem flipBit_append_right (cs : List UInt8) (j : Nat) :
    ∀ (bs : List UInt8) (k : Nat), flipBit (bs ++ cs) (bs.length + k) j = bs ++ flipBit cs k j
  | [], k => by rw [List.length_nil, Nat.zero_add]; rfl
  | b :: bs, k => by
      rw [List.length_cons, Nat.add_right_comm]
      exact congrArg (b :: ·) (flipBit_append_right cs j bs k)

/-- What a flip leaves alone. -/
theorem getElem?_flipBit_ne {k i : Nat} (h : k ≠ i) (bs : List UInt8) (j : Nat) :
    (flipBit bs k j)[i]? = bs[i]? := List.getElem?_modify_ne _ _ h

theorem bit_ne_zero : ∀ j < 8, UInt8.ofNat (2 ^ j) ≠ 0 := by decide

/-- A flip always changes the bytes. -/
theorem flipBit_ne {bs : List UInt8} {k j : Nat} (hk : k < bs.length) (hj : j < 8) :
    (flipBit bs k j)[k]? ≠ bs[k]? := by
  rw [flipBit, List.getElem?_modify_eq, List.getElem?_eq_getElem hk]
  intro h
  have hxor : bs[k] ^^^ .ofNat (2 ^ j) = bs[k] := Option.some.inj h
  exact bit_ne_zero j hj ((UInt8.xor_right_inj bs[k]).mp (hxor.trans UInt8.xor_zero.symm))

namespace MessageHeader

/-- The header with a bit of its memory flipped. -/
def flipBit (h : MessageHeader) (k j : Nat) : MessageHeader :=
  .ofBytes (AeronReplay.flipBit h.toBytes k j)

theorem toBytes_flipBit (h : MessageHeader) (k j : Nat) :
    (h.flipBit k j).toBytes = AeronReplay.flipBit h.toBytes k j :=
  toBytes_ofBytes ((length_flipBit _ _ _).trans h.length_toBytes)

/-- The stored checksum is in the bytes 56 to 59. -/
theorem field_checksum (h : MessageHeader) : field 56 4 h.toBytes = h.checksum.toNat := by
  simp [toBytes, leadingBytes, trailingBytes, List.append_assoc, field_skip, field_here]

/-- The flags are in byte 47. -/
theorem field_flags (h : MessageHeader) : field 47 1 h.toBytes = h.flags.toNat := by
  simp [toBytes, leadingBytes, trailingBytes, List.append_assoc, field_skip, field_here]

theorem checksum_flipBit {k : Nat} (hk : k < 56 ∨ 60 ≤ k) (h : MessageHeader) (j : Nat) :
    (h.flipBit k j).checksum = h.checksum := by
  rw [← UInt32.toNat_inj, ← field_checksum, ← field_checksum, toBytes_flipBit,
    AeronReplay.flipBit, field_modify hk]

theorem flags_flipBit {k : Nat} (hk : k ≠ 47) (h : MessageHeader) (j : Nat) :
    (h.flipBit k j).flags = h.flags := by
  rw [← UInt8.toNat_inj, ← field_flags, ← field_flags, toBytes_flipBit, AeronReplay.flipBit,
    field_modify (by omega)]

/-- Byte 47 holds the flags and nothing else. -/
theorem flipBit_flags (h : MessageHeader) (j : Nat) :
    h.flipBit 47 j = { h with flags := h.flags ^^^ .ofNat (2 ^ j) } := by
  have hbytes : AeronReplay.flipBit h.toBytes 47 j
      = { h with flags := h.flags ^^^ UInt8.ofNat (2 ^ j) }.toBytes := by
    simp only [AeronReplay.flipBit, toBytes, leadingBytes, trailingBytes, encode,
      List.cons_append, List.nil_append, List.modify_succ_cons, List.modify_zero_cons,
      UInt8.ofNat_toNat]
  have hback := ofBytes_toBytes { h with flags := h.flags ^^^ UInt8.ofNat (2 ^ j) } []
  rwa [List.append_nil, ← hbytes] at hback

theorem hasChecksum_iff (h : MessageHeader) :
    h.hasChecksum = true ↔ h.flags.toNat % 2 = 1 := by
  have hmod : (h.flags &&& FLAG_CHECKSUM_ENABLED).toNat = h.flags.toNat % 2 := by
    rw [UInt8.toNat_and]
    exact Nat.and_one_is_mod _
  rw [hasChecksum, decide_eq_true_iff, ne_eq, ← UInt8.toNat_inj, hmod]
  exact Nat.mod_two_ne_zero

end MessageHeader

namespace MessageBuffer

/-- The buffer with a bit of its message flipped: byte `k` is a byte of the header or, from
`HEADER_SIZE` on, of the payload. -/
def flipBit (b : MessageBuffer) (k j : Nat) : MessageBuffer :=
  if k < HEADER_SIZE then { b with header := b.header.flipBit k j }
  else
    { b with payload := ⟨AeronReplay.flipBit b.payload.bytes (k - HEADER_SIZE) j,
        (length_flipBit _ _ _).trans b.payload.length_eq⟩ }

/-- `flipBit` flips the bit of the bytes on the wire. -/
theorem wireBytes_flipBit (b : MessageBuffer) (k j : Nat) :
    (b.flipBit k j).wireBytes = AeronReplay.flipBit b.wireBytes k j := by
  unfold flipBit
  split
  next hk =>
    rw [wireBytes, wireBytes, flipBit_append_left _ _ _ _ (by rwa [MessageHeader.length_toBytes]),
      ← MessageHeader.toBytes_flipBit]
    rfl
  next hk =>
    have hpos : k = b.header.toBytes.length + (k - HEADER_SIZE) := by
      rw [MessageHeader.length_toBytes]
      omega
    conv_rhs => rw [hpos]
    rw [wireBytes, wireBytes, flipBit_append_right, payloadBytes, payloadBytes, ← flipBit_take]

/-- Apart from the checksum, the checked bytes are the bytes on the wire. -/
theorem getElem?_checkedBytes (b : MessageBuffer) (i : Nat) :
    b.checkedBytes[i]? = if 56 ≤ i ∧ i < 60 then some 0 else b.wireBytes[i]? := by
  have hlen := b.header.length_toBytes
  simp only [checkedBytes, wireBytes, MessageHeader.clearChecksum, List.getElem?_append,
    List.getElem?_take, List.getElem?_drop, List.getElem?_replicate, List.length_append,
    List.length_take, List.length_drop, List.length_replicate, hlen, HEADER_SIZE]
  grind

/-- The checked bytes follow a flip outside of the checksum, -/
theorem checkedBytes_flipBit_ne (b : MessageBuffer) {k i : Nat} (h : k ≠ i) (j : Nat) :
    (b.flipBit k j).checkedBytes[i]? = b.checkedBytes[i]? := by
  rw [getElem?_checkedBytes, getElem?_checkedBytes, wireBytes_flipBit, getElem?_flipBit_ne h]

/-- and do not contain the checksum. -/
theorem checkedBytes_flipBit_checksum (b : MessageBuffer) {k : Nat} (h : 56 ≤ k ∧ k < 60)
    (j : Nat) : (b.flipBit k j).checkedBytes = b.checkedBytes := by
  refine List.ext_getElem? fun i => ?_
  by_cases hi : k = i
  · rw [getElem?_checkedBytes, getElem?_checkedBytes, ← hi, if_pos h, if_pos h]
  · exact checkedBytes_flipBit_ne b hi j

theorem length_checkedBytes (b : MessageBuffer) : b.checkedBytes.length = b.wireBytes.length := by
  simp only [checkedBytes, wireBytes, MessageHeader.clearChecksum, List.length_append,
    List.length_take, List.length_drop, List.length_replicate, MessageHeader.length_toBytes]
  rfl

/-- A stored checksum is stored in the same bytes. -/
theorem getElem?_wireBytes_of_checksum {b b' : MessageBuffer}
    (h : b.header.checksum = b'.header.checksum) {i : Nat} (hi : 56 ≤ i ∧ i < 60) :
    b.wireBytes[i]? = b'.wireBytes[i]? := by
  have hlen := b.header.length_toBytes
  have hlen' := b'.header.length_toBytes
  unfold HEADER_SIZE at hlen hlen'
  have hfield : field 56 4 b.header.toBytes = field 56 4 b'.header.toBytes := by
    rw [MessageHeader.field_checksum, MessageHeader.field_checksum, h]
  rw [wireBytes, wireBytes, List.getElem?_append_left (by omega),
    List.getElem?_append_left (by omega)]
  exact getElem?_eq_of_field (by omega) (by omega) hfield hi.1 hi.2

/-- Only bit 0 of the flags decides whether the checksum is looked at. -/
theorem hasChecksum_flipBit {b : MessageBuffer} (hsum : b.header.hasChecksum = true) {k j : Nat}
    (hj : j < 8) : (b.flipBit k j).header.hasChecksum = true ↔ ¬ (k = 47 ∧ j = 0) := by
  by_cases hk : k = 47
  · subst hk
    have hflags : (b.flipBit 47 j).header.flags = b.header.flags ^^^ .ofNat (2 ^ j) :=
      congrArg MessageHeader.flags (b.header.flipBit_flags j)
    have hbit : ∀ j < 8, (UInt8.ofNat (2 ^ j)).toNat % 2 = 1 ↔ j = 0 := by decide
    rw [MessageHeader.hasChecksum_iff] at hsum ⊢
    rw [hflags, UInt8.toNat_xor, Nat.xor_mod_two_eq_one, hbit j hj]
    simp [hsum]
  · have hflags : (b.flipBit k j).header.flags = b.header.flags := by
      unfold flipBit
      split
      · exact MessageHeader.flags_flipBit hk _ _
      · rfl
    refine iff_of_true ?_ fun h => hk h.1
    rw [MessageHeader.hasChecksum, hflags]
    exact hsum

/-- With the checksum flag gone nothing but the constant fields is tested. -/
theorem validate_flipBit_flag {b : MessageBuffer} (hsum : b.header.hasChecksum = true)
    (hvalid : b.validate = true) : (b.flipBit 47 0).validate = true := by
  obtain ⟨hmagic, hversion, hlength, -⟩ := (validate_iff b).mp hvalid
  have hheader : (b.flipBit 47 0).header = { b.header with flags := b.header.flags ^^^ 1 } :=
    b.header.flipBit_flags 0
  rw [validate_iff]
  refine ⟨?_, ?_, ?_, fun hflag => ?_⟩
  · rw [hheader]
    exact hmagic
  · rw [hheader]
    exact hversion
  · rw [hheader]
    exact hlength
  · exact absurd ⟨rfl, rfl⟩ ((hasChecksum_flipBit hsum (by decide)).mp hflag)

/-- **Which single bits of a checksummed message are guarded**: all but bit 0 of the flags. -/
theorem validate_flipBit (b : MessageBuffer) (hsum : b.header.hasChecksum = true)
    (hvalid : b.validate = true) (k j : Nat) (hk : k < b.wireBytes.length) (hj : j < 8) :
    (b.flipBit k j).validate = true ↔ k = 47 ∧ j = 0 := by
  constructor
  · intro hvalid'
    by_contra hother
    obtain ⟨-, -, -, hcrc⟩ := (validate_iff b).mp hvalid
    obtain ⟨-, -, -, hcrc'⟩ := (validate_iff _).mp hvalid'
    have hsum' := (hasChecksum_flipBit hsum hj).mpr hother
    have hwire : (b.flipBit k j).wireBytes[k]? ≠ b.wireBytes[k]? := by
      rw [wireBytes_flipBit]
      exact flipBit_ne hk hj
    by_cases hmem : 56 ≤ k ∧ k < 60
    · -- the checksum that is stored changes, the one that is computed does not
      have hsame : (b.flipBit k j).header.checksum = b.header.checksum := by
        rw [hcrc' hsum', checkedBytes_flipBit_checksum b hmem, ← hcrc hsum]
      exact hwire (getElem?_wireBytes_of_checksum hsame hmem)
    · -- the checksum that is computed changes, the one that is stored does not
      have hsame : (b.flipBit k j).header.checksum = b.header.checksum := by
        unfold flipBit
        split
        · exact MessageHeader.checksum_flipBit (by omega) _ _
        · rfl
      have hrun : crc32Run 0xFFFFFFFF (b.flipBit k j).checkedBytes
          = crc32Run 0xFFFFFFFF b.checkedBytes := by
        rw [← UInt32.not_inj, ← hcrc hsum, ← hcrc' hsum', hsame]
      have hbytes : (b.flipBit k j).checkedBytes = b.checkedBytes := by
        have hagree : ∀ i, i < k ∨ k + 4 ≤ i →
            (b.flipBit k j).checkedBytes[i]? = b.checkedBytes[i]? := fun i hi =>
          checkedBytes_flipBit_ne b (by omega) j
        refine eq_of_crc32Run_agree 0xFFFFFFFF [] ?_ hagree hrun
        rw [length_checkedBytes, length_checkedBytes, wireBytes_flipBit, length_flipBit]
      have hi := congrArg (·[k]?) hbytes
      simp only [getElem?_checkedBytes, if_neg hmem] at hi
      exact hwire hi
  · rintro ⟨rfl, rfl⟩
    exact validate_flipBit_flag hsum hvalid

/-- The lowest bit of the version. -/
theorem validate_flipBit_checksummed :
    ((checksummed [1, 2, 3, 4]).flipBit 4 0).validate = true ↔ 4 = 47 ∧ 0 = 0 :=
  validate_flipBit (checksummed [1, 2, 3, 4]) (by decide +kernel) checksummed_validate 4 0
    (by decide +kernel) (by decide)

/-- The bit that is not guarded: the message is accepted without its checksum flag. -/
theorem checksummed_flipBit_flag :
    (checksummed [1, 2, 3, 4]).header.hasChecksum = true ∧
    (checksummed [1, 2, 3, 4]).validate = true ∧
    (checksummed [1, 2, 3, 4]).wireSize = 68 ∧
    ((checksummed [1, 2, 3, 4]).flipBit 47 0).validate = true := by
  refine ⟨?_, checksummed_validate, ?_, ?_⟩
  · decide +kernel
  · decide +kernel
  · decide +kernel

/-! ## The declared length -/

/-- **What an accepted message says about its length.** The declared length is within the room of a
buffer, so that a reader who trusts it stays within the payload array; the length of what is stored
is that of the fragment, raised to a header and cut to a buffer. The two are not compared: without
a checksum any declared length within the room is accepted, and a checksum is one of the bytes
that are stored. -/
theorem length_of_validate (b : MessageBuffer) (fragment : List UInt8)
    (hvalid : (b.copyFromAeron fragment).validate = true) :
    let buf := b.copyFromAeron fragment
    buf.header.message_length.toNat ≤ HEADER_SIZE + MAX_PAYLOAD_SIZE ∧
    buf.header.message_length.toNat - HEADER_SIZE ≤ buf.payload.bytes.length ∧
    buf.wireSize = HEADER_SIZE + buf.payloadBytes.length ∧
    buf.wireSize = min (max fragment.length HEADER_SIZE) (HEADER_SIZE + MAX_PAYLOAD_SIZE) ∧
    (HEADER_SIZE ≤ fragment.length → fragment.length ≤ HEADER_SIZE + MAX_PAYLOAD_SIZE →
      buf.wireSize = fragment.length) ∧
    (buf.header.hasChecksum = false → ∀ n : UInt32, n.toNat ≤ HEADER_SIZE + MAX_PAYLOAD_SIZE →
      { buf with header := { buf.header with message_length := n } }.validate = true) ∧
    (buf.header.hasChecksum = true →
      buf.header.checksum = ~~~ crc32Run 0xFFFFFFFF buf.checkedBytes ∧
      buf.checkedBytes.length = buf.wireSize) := by
  intro buf
  obtain ⟨hmagic, hversion, hlength, hcrc⟩ := (validate_iff buf).mp hvalid
  have hsize : buf.wireSize = HEADER_SIZE + min (fragment.length - HEADER_SIZE) MAX_PAYLOAD_SIZE :=
    wireSize_copyFromAeron b fragment
  have hactual : buf.actual_payload_length.toNat
      = min (fragment.length - HEADER_SIZE) MAX_PAYLOAD_SIZE :=
    toNat_actual_payload_length_copyFromAeron b fragment
  have hroom : buf.actual_payload_length.toNat ≤ MAX_PAYLOAD_SIZE := by
    rw [hactual]
    exact Nat.min_le_right _ _
  have hwire := length_wireBytes hroom
  refine ⟨hlength, ?_, ?_, ?_, ?_, fun hsum n hn => ?_, fun hsum => ⟨hcrc hsum, ?_⟩⟩
  · rw [buf.payload.length_eq]
    omega
  · rw [length_payloadBytes, Nat.min_eq_left hroom, wireSize]
  · rw [hsize]
    omega
  · rw [hsize]
    omega
  · rw [validate_iff]
    refine ⟨hmagic, hversion, hn, fun hflag => ?_⟩
    have hflag' : buf.header.hasChecksum = true := hflag
    rw [hsum] at hflag'
    cases hflag'
  · rw [length_checkedBytes, hwire]

/-- A header that declares `4160` bytes and has no checksum. -/
def overlongHeader : MessageHeader :=
  { MessageHeader.zero with
    magic := .sekr
    version := 1
    message_length := 4160 }

/-- The header alone, a fragment of 64 bytes. -/
theorem length_of_validate_overlong :
    (MessageBuffer.fresh.copyFromAeron overlongHeader.toBytes).header.message_length.toNat
      ≤ HEADER_SIZE + MAX_PAYLOAD_SIZE :=
  (length_of_validate MessageBuffer.fresh overlongHeader.toBytes (by decide +kernel)).1

/-- It is accepted although it declares more than was received. -/
theorem overlong_validate :
    let buf := MessageBuffer.fresh.copyFromAeron overlongHeader.toBytes
    buf.validate = true ∧ buf.header.message_length = 4160 ∧ buf.wireSize = 64 ∧
      overlongHeader.toBytes.length = 64 := by
  decide +kernel

end MessageBuffer

end AeronReplay
