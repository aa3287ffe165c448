import AeronReplay.Lib.LittleEndian

set_option autoImplicit false

/-! # The checkpoint record

The in-memory checkpoint of `CheckpointManager` and its file format: a magic number, a version,
two bytes of padding and the four values. `load_record` is the round trip between `flush` and
`load`. -/

namespace AeronReplay

open LittleEndian

/-- `CheckpointManager::CheckpointData`. -/
structure CheckpointData where
  last_sequence_number : Int64
  last_position : Int64
  message_count : Int64
  timestamp_ns : Int64
  deriving DecidableEq

namespace CheckpointData

def zero : CheckpointData := ⟨0, 0, 0, 0⟩

/-- The condition under which `flush` returns without writing. -/
def isEmpty (d : CheckpointData) : Bool :=
  d.last_sequence_number = 0 ∧ d.last_position = 0 ∧ d.message_count = 0

end CheckpointData

namespace CheckpointManager

def MAGIC : UInt32 := 0x43484B50
def VERSION : UInt16 := 1
def PADDING : UInt16 := 0

def encodeInt64 (x : Int64) : List UInt8 := encode 8 x.toUInt64.toNat

def decodeInt64 (off : Nat) (bs : List UInt8) : Int64 := (UInt64.ofNat (field off 8 bs)).toInt64

/-- What the successive `ofs.write` calls of `flush` write. -/
def writes (d : CheckpointData) : List (List UInt8) :=
  [encode 4 MAGIC.toNat, encode 2 VERSION.toNat, encode 2 PADDING.toNat,
    encodeInt64 d.last_sequence_number, encodeInt64 d.last_position,
    encodeInt64 d.message_count, encodeInt64 d.timestamp_ns]

/-- The complete record. -/
def record (d : CheckpointData) : List UInt8 := (writes d).flatten

/-- `load`, on the content of the checkpoint file, if there is one. `data` is what the
constructor has set up and what stays where nothing is loaded. A file that ends early is
refused at the end, whatever its missing bytes were read as. -/
def load (file : Option (List UInt8)) (data : CheckpointData) : CheckpointData :=
  match file with
  | none => data
  | some bytes =>
    if bytes.length < 4 ∨ field 0 4 bytes ≠ MAGIC.toNat then data
    else if field 4 2 bytes ≠ VERSION.toNat then data
    else if bytes.length < 40 then data
    else {
      last_sequence_number := decodeInt64 8 bytes
      last_position := decodeInt64 16 bytes
      message_count := decodeInt64 24 bytes
      timestamp_ns := decodeInt64 32 bytes }

theorem length_record (d : CheckpointData) : (record d).length = 40 := by
  simp only [record, writes, encodeInt64, List.flatten_cons, List.flatten_nil, List.length_append,
    length_encode, List.length_nil]

theorem field_magic_record (d : CheckpointData) : field 0 4 (record d) = MAGIC.toNat := by
  rw [record, writes, List.flatten_cons, field_here]
  rfl

theorem field_version_record (d : CheckpointData) : field 4 2 (record d) = VERSION.toNat := by
  simp only [record, writes, List.flatten_cons]
  rw [field_skip (by decide), field_here]
  rfl

/-- **`load` reads back what `flush` has written**, for all values of the four fields. -/
theorem load_record (d data : CheckpointData) : load (some (record d)) data = d := by
  have hlen := length_record d
  unfold load
  dsimp only
  rw [if_neg (by rw [hlen, field_magic_record]; simp), if_neg (by rw [field_version_record]; simp),
    if_neg (by omega)]
  obtain ⟨seq, pos, count, ts⟩ := d
  simp [decodeInt64, record, writes, encodeInt64, field_skip, field_here, field_last]

end CheckpointManager

end AeronReplay
