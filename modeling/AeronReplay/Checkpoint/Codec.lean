import AeronReplay.Checkpoint.File

set_option autoImplicit false

/-! # Reading a checkpoint file that may end anywhere

`load` reads seven variables from a stream and looks at the state of the stream after the first
and after the last of them. `loadFile` follows these reads, with whatever the variables held
before; `loadFile_eq_load` says that what is loaded does not depend on it, and `codec_exact` puts
this together with what `flush` writes. -/

namespace AeronReplay.CheckpointManager

open LittleEndian

/-! ## The stream -/

/-- `std::ifstream`: the bytes that have not been read, and whether all reads so far have found
their bytes. -/
structure IfStream where
  rest : List UInt8
  good : Bool

/-- `ifs.read(&x, sizeof(x))`, where `mem` is the memory of `x`. A stream that runs out of bytes
overwrites the first bytes of `x` only and is no longer good; from then on nothing is read. -/
def IfStream.read (ifs : IfStream) (mem : List UInt8) : List UInt8 × IfStream :=
  if ifs.good then
    (ifs.rest.take mem.length ++ mem.drop (ifs.rest.take mem.length).length,
      { rest := ifs.rest.drop mem.length
        good := mem.length ≤ ifs.rest.length })
  else (mem, ifs)

/-- What the variables of `load` happen to hold before anything is read. -/
structure Locals where
  magic : UInt32
  version : UInt16
  padding : UInt16
  seq : Int64
  pos : Int64
  count : Int64
  ts : Int64

def int64OfBytes (mem : List UInt8) : Int64 := (UInt64.ofNat (decode mem)).toInt64

/-- `load`, read by read, on an open stream. The flag says whether the values were stored. -/
def loadStream (locals : Locals) (ifs : IfStream) (data : CheckpointData) :
    CheckpointData × Bool :=
  let (magic, ifs) := ifs.read (encode 4 locals.magic.toNat)
  if !ifs.good || decode magic ≠ MAGIC.toNat then (data, false)
  else
    let (version, ifs) := ifs.read (encode 2 locals.version.toNat)
    -- here the state of the stream is not looked at
    if decode version ≠ VERSION.toNat then (data, false)
    else
      let (_, ifs) := ifs.read (encode 2 locals.padding.toNat)
      let (seq, ifs) := ifs.read (encodeInt64 locals.seq)
      let (pos, ifs) := ifs.read (encodeInt64 locals.pos)
      let (count, ifs) := ifs.read (encodeInt64 locals.count)
      let (ts, ifs) := ifs.read (encodeInt64 locals.ts)
      if !ifs.good then (data, false)
      else ({
        last_sequence_number := int64OfBytes seq
        last_position := int64OfBytes pos
        message_count := int64OfBytes count
        timestamp_ns := int64OfBytes ts }, true)

/-- `load`, on the content of the checkpoint file, if there is one. -/
def loadFile (locals : Locals) (file : Option (List UInt8)) (data : CheckpointData) :
    CheckpointData × Bool :=
  match file with
  | none => (data, false)
  | some bytes => loadStream locals { rest := bytes, good := true } data

/-- What a `flush` that succeeds leaves in the checkpoint file. -/
def flush (file : Option (List UInt8)) (d : CheckpointData) : Option (List UInt8) :=
  if d.isEmpty then file else some (record d)

/-! ## Following the reads -/

/-- The stream has come to the offset `off` of the file, unless it has failed. -/
def IfStream.At (bytes : List UInt8) (off : Nat) (ifs : IfStream) : Prop :=
  ifs.good = true → ifs.rest = bytes.drop off ∧ off ≤ bytes.length

theorem IfStream.At.read {bytes mem : List UInt8} {off k : Nat} {ifs : IfStream}
    (h : ifs.At bytes off) (hk : mem.length = k) : (ifs.read mem).2.At bytes (off + k) := by
  intro hgood
  unfold IfStream.read at hgood ⊢
  cases hifs : ifs.good with
  | false =>
      rw [hifs] at hgood
      exact absurd hgood (by simp [hifs])
  | true =>
      obtain ⟨hrest, hoff⟩ := h hifs
      simp only [hifs, if_true, decide_eq_true_eq] at hgood ⊢
      rw [hrest, List.length_drop] at hgood
      rw [hrest, List.drop_drop, hk]
      exact ⟨rfl, by omega⟩

/-- A read that finds its bytes overwrites all of the variable. -/
theorem read_drop {bytes mem : List UInt8} {off k : Nat} (hk : mem.length = k)
    (h : off + k ≤ bytes.length) :
    ({ rest := bytes.drop off, good := true } : IfStream).read mem
      = ((bytes.drop off).take k, { rest := bytes.drop (off + k), good := true }) := by
  have hlen : ((bytes.drop off).take mem.length).length = mem.length := by
    rw [List.length_take, List.length_drop]
    omega
  have henough : mem.length ≤ (bytes.drop off).length := by
    rw [List.length_drop]
    omega
  unfold IfStream.read
  rw [if_pos rfl, hlen, List.drop_length, List.append_nil, List.drop_drop, hk]
  simp only [← hk, henough, decide_true]

theorem length_encodeInt64 (x : Int64) : (encodeInt64 x).length = 8 := length_encode _ _

/-- A file that is too short is refused at one of the three tests, whatever the variables held. -/
theorem loadStream_short (locals : Locals) {bytes : List UInt8} (h : bytes.length < 40)
    (data : CheckpointData) :
    loadStream locals { rest := bytes, good := true } data = (data, false) := by
  have hstart : ({ rest := bytes, good := true } : IfStream).At bytes 0 :=
    fun _ => ⟨List.drop_zero.symm, Nat.zero_le _⟩
  have hend := ((((((hstart.read (length_encode 4 locals.magic.toNat)).read
    (length_encode 2 locals.version.toNat)).read (length_encode 2 locals.padding.toNat)).read
    (length_encodeInt64 locals.seq)).read (length_encodeInt64 locals.pos)).read
    (length_encodeInt64 locals.count)).read (length_encodeInt64 locals.ts)
  unfold loadStream
  dsimp only
  split
  · rfl
  split
  · rfl
  rw [if_pos]
  rw [Bool.not_eq_true', Bool.eq_false_iff]
  intro hgood
  have hlong := (hend hgood).2
  omega

/-- A file that is long enough is read completely. -/
theorem loadStream_long (locals : Locals) {bytes : List UInt8} (h : 40 ≤ bytes.length)
    (data : CheckpointData) :
    loadStream locals { rest := bytes, good := true } data
      = if field 0 4 bytes = MAGIC.toNat ∧ field 4 2 bytes = VERSION.toNat then
          (⟨decodeInt64 8 bytes, decodeInt64 16 bytes, decodeInt64 24 bytes,
            decodeInt64 32 bytes⟩, true)
        else (data, false) := by
  have hread (off k : Nat) {mem : List UInt8} (hk : mem.length = k) (hle : off + k ≤ 40) :
      ({ rest := bytes.drop off, good := true } : IfStream).read mem
        = ((bytes.drop off).take k, { rest := bytes.drop (off + k), good := true }) :=
    read_drop hk (Nat.le_trans hle h)
  have hmagic := hread 0 4 (length_encode 4 locals.magic.toNat) (by decide)
  have hversion := hread 4 2 (length_encode 2 locals.version.toNat) (by decide)
  have hpadding := hread 6 2 (length_encode 2 locals.padding.toNat) (by decide)
  have hseq := hread 8 8 (length_encodeInt64 locals.seq) (by decide)
  have hpos := hread 16 8 (length_encodeInt64 locals.pos) (by decide)
  have hcount := hread 24 8 (length_encodeInt64 locals.count) (by decide)
  have hts := hread 32 8 (length_encodeInt64 locals.ts) (by decide)
  rw [List.drop_zero] at hmagic
  simp only [Nat.reduceAdd] at hmagic hversion hpadding hseq hpos hcount hts
  simp only [loadStream, hmagic, hversion, hpadding, hseq, hpos, hcount, hts]
  have hmagicField : decode (bytes.take 4) = field 0 4 bytes := rfl
  have hversionField : decode ((bytes.drop 4).take 2) = field 4 2 bytes := rfl
  rw [hmagicField, hversionField]
  by_cases hm : field 0 4 bytes = MAGIC.toNat
  · by_cases hv : field 4 2 bytes = VERSION.toNat
    · simp only [hm, hv]
      rfl
    · simp [hm, hv]
  · simp [hm]

/-- **What `load` makes of a file**, whatever its variables held before. -/
theorem loadFile_some (locals : Locals) (bytes : List UInt8) (data : CheckpointData) :
    loadFile locals (some bytes) data
      = if 40 ≤ bytes.length ∧ field 0 4 bytes = MAGIC.toNat ∧ field 4 2 bytes = VERSION.toNat then
          (⟨decodeInt64 8 bytes, decodeInt64 16 bytes, decodeInt64 24 bytes,
            decodeInt64 32 bytes⟩, true)
        else (data, false) := by
  by_cases h : 40 ≤ bytes.length
  · simp only [h, true_and]
    exact loadStream_long locals h data
  · rw [if_neg fun hall => h hall.1]
    exact loadStream_short locals (Nat.lt_of_not_le h) data

/-- The values that are in memory after `load` are those of the simpler `load`. -/
theorem loadFile_eq_load (locals : Locals) (file : Option (List UInt8)) (data : CheckpointData) :
    (loadFile locals file data).1 = load file data := by
  cases file with
  | none => rfl
  | some bytes =>
      rw [loadFile_some]
      unfold load
      dsimp only
      by_cases hlen : 40 ≤ bytes.length
      · by_cases hm : field 0 4 bytes = MAGIC.toNat
        · by_cases hv : field 4 2 bytes = VERSION.toNat
          · rw [if_pos ⟨hlen, hm, hv⟩, if_neg (by omega), if_neg (not_not_intro hv),
              if_neg (by omega)]
          · rw [if_neg fun h => hv h.2.2, if_neg (by omega), if_pos hv]
        · rw [if_neg fun h => hm h.2.1, if_pos (Or.inr hm)]
      · rw [if_neg fun h => hlen h.1]
        split
        · rfl
        split
        · rfl
        rw [if_pos (by omega)]

/-- A rename leaves in the checkpoint file what `flush` leaves there. -/
theorem checkpoint_of_rename {s t : FileState} {d : CheckpointData} (h : BytesKept s)
    (hstep : FileStep s [.renamed d] t) (he : d.isEmpty = false) :
    t.checkpoint = flush s.checkpoint d := by
  obtain ⟨hnone, -⟩ | ⟨d', heq, -, hrecord⟩ := checkpoint_step h hstep
  · cases hnone
  · cases heq
    rw [hrecord, flush, he]
    rfl

/-! ## The result -/

/-- **The checkpoint codec is exact.** What `flush` writes is loaded as it was and written again
byte by byte; a file is either accepted, with the four values at the offsets 8 to 39, or leaves the
values in memory as they are. What the variables of `load` held before makes no difference. -/
theorem codec_exact :
    (∀ (file : Option (List UInt8)) (d data : CheckpointData) (locals : Locals),
      ¬ (d.last_sequence_number = 0 ∧ d.last_position = 0 ∧ d.message_count = 0) →
      loadFile locals (flush file d) data = (d, true) ∧
      flush (flush file d) d = flush file d ∧
      flush (flush file d) (loadFile locals (flush file d) data).1 = flush file d) ∧
    (∀ (bytes : List UInt8) (data : CheckpointData) (locals : Locals),
      (40 ≤ bytes.length ∧ field 0 4 bytes = 0x43484B50 ∧ field 4 2 bytes = 1 ∧
        loadFile locals (some bytes) data
          = (⟨decodeInt64 8 bytes, decodeInt64 16 bytes, decodeInt64 24 bytes,
              decodeInt64 32 bytes⟩, true)) ∨
      (¬ (40 ≤ bytes.length ∧ field 0 4 bytes = 0x43484B50 ∧ field 4 2 bytes = 1) ∧
        loadFile locals (some bytes) data = (data, false))) ∧
    ∀ (file : Option (List UInt8)) (data : CheckpointData) (locals locals' : Locals),
      loadFile locals file data = loadFile locals' file data := by
  refine ⟨fun file d data locals hne => ?_, fun bytes data locals => ?_,
    fun file data locals locals' => ?_⟩
  · have he : d.isEmpty = false := decide_eq_false hne
    have hflush (f : Option (List UInt8)) : flush f d = some (record d) := by
      rw [flush, he]
      rfl
    have hload : loadFile locals (some (record d)) data = (d, true) := by
      have hvalues := loadFile_eq_load locals (some (record d)) data
      rw [load_record] at hvalues
      have hflag : (loadFile locals (some (record d)) data).2 = true := by
        rw [loadFile_some, if_pos ⟨Nat.le_of_eq (length_record d).symm, field_magic_record d,
          field_version_record d⟩]
      exact Prod.ext hvalues hflag
    rw [hflush file, hload]
    exact ⟨rfl, hflush _, hflush _⟩
  · rw [loadFile_some]
    by_cases hall : 40 ≤ bytes.length ∧ field 0 4 bytes = MAGIC.toNat ∧
        field 4 2 bytes = VERSION.toNat
    · rw [if_pos hall]
      exact Or.inl ⟨hall.1, hall.2.1, hall.2.2, rfl⟩
    · rw [if_neg hall]
      exact Or.inr ⟨hall, rfl⟩
  · cases file with
    | none => rfl
    | some bytes => rw [loadFile_some, loadFile_some]

end AeronReplay.CheckpointManager
