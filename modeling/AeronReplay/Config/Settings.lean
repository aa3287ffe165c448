import AeronReplay.Config.Ini
import AeronReplay.Lib.Decimal

set_option autoImplicit false

/-! # The settings

`AeronSettings` (`ConfigLoader.h`): the values that a configuration is made of, with the defaults
of `AeronConfig.h`, the check `validate` and the text that `print` writes. `validate_ok_iff` says
what passes the check; the response channel is not looked at. -/

namespace AeronReplay

open Text Decimal

/-- One step that can fail after the other. -/
theorem ok_of_bind {α β : Type} {e : Except Str α} {f : α → Except Str β} {b : β} :
    (e >>= f) = .ok b ↔ ∃ a, e = .ok a ∧ f a = .ok b := by
  cases e with
  | error message =>
      constructor
      · intro h
        exact absurd h (by simp [bind, Except.bind])
      · rintro ⟨a, h, -⟩
        exact absurd h (by simp)
  | ok a =>
      constructor
      · intro h
        exact ⟨a, rfl, h⟩
      · rintro ⟨a', h, hf⟩
        obtain rfl : a = a' := Except.ok.inj h
        exact hf

namespace AeronConfig

def AERON_DIR : Str := "/home/hesed/shm/aeron".toList
def ARCHIVE_CONTROL_REQUEST_CHANNEL : Str := "aeron:udp?endpoint=localhost:8010".toList
def ARCHIVE_CONTROL_RESPONSE_CHANNEL : Str := "aeron:udp?endpoint=localhost:0".toList
def PUBLICATION_CHANNEL : Str := "aeron:udp?endpoint=224.0.1.1:40456|interface=0.0.0.0".toList
def PUBLICATION_STREAM_ID : Int32 := 10
def SUBSCRIPTION_CHANNEL : Str := "aeron:udp?endpoint=224.0.1.1:40456|interface=0.0.0.0".toList
def SUBSCRIPTION_STREAM_ID : Int32 := 10
def REPLAY_CHANNEL : Str := "aeron:udp?endpoint=localhost:40457".toList
def REPLAY_STREAM_ID : Int32 := 20
def IDLE_SLEEP_MS : Int64 := 1
def MESSAGE_TIMEOUT_NS : Int64 := 10000000000

end AeronConfig

/-- The fields start with the defaults, as the constructor sets them. -/
structure AeronSettings where
  aeron_dir : Str := AeronConfig.AERON_DIR
  archive_control_request_channel : Str := AeronConfig.ARCHIVE_CONTROL_REQUEST_CHANNEL
  archive_control_response_channel : Str := AeronConfig.ARCHIVE_CONTROL_RESPONSE_CHANNEL
  publication_channel : Str := AeronConfig.PUBLICATION_CHANNEL
  publication_stream_id : Int32 := AeronConfig.PUBLICATION_STREAM_ID
  subscription_channel : Str := AeronConfig.SUBSCRIPTION_CHANNEL
  subscription_stream_id : Int32 := AeronConfig.SUBSCRIPTION_STREAM_ID
  replay_channel : Str := AeronConfig.REPLAY_CHANNEL
  replay_stream_id : Int32 := AeronConfig.REPLAY_STREAM_ID
  idle_sleep_ms : Int64 := AeronConfig.IDLE_SLEEP_MS
  message_timeout_ns : Int64 := AeronConfig.MESSAGE_TIMEOUT_NS
  deriving DecidableEq

namespace AeronSettings

/-! ## The check -/

/-- `channel.find("aeron:") == 0` -/
def StartsWithAeron (channel : Str) : Prop := "aeron:".toList <+: channel

instance (channel : Str) : Decidable (StartsWithAeron channel) :=
  inferInstanceAs (Decidable ("aeron:".toList <+: channel))

def validateDir (aeron_dir : Str) : Except Str Unit :=
  if aeron_dir = [] then .error "aeron_dir is empty".toList else .ok ()

def validateChannel (channel name : Str) : Except Str Unit :=
  if channel = [] then .error (name ++ " is empty".toList)
  else if ¬ StartsWithAeron channel then .error (name ++ " must start with 'aeron:'".toList)
  else .ok ()

def validateStreamId (stream_id : Int32) (name : Str) : Except Str Unit :=
  if stream_id ≤ 0 then .error (name ++ " must be positive".toList) else .ok ()

/-- The check of all fields; what fails it gives its `error_message`. -/
def validate (s : AeronSettings) : Except Str Unit := do
  validateDir s.aeron_dir
  validateChannel s.archive_control_request_channel "archive_control_request_channel".toList
  validateChannel s.publication_channel "publication_channel".toList
  validateChannel s.subscription_channel "subscription_channel".toList
  validateChannel s.replay_channel "replay_channel".toList
  validateStreamId s.publication_stream_id "publication_stream_id".toList
  validateStreamId s.subscription_stream_id "subscription_stream_id".toList
  validateStreamId s.replay_stream_id "replay_stream_id".toList

theorem StartsWithAeron.ne_nil {channel : Str} (h : StartsWithAeron channel) : channel ≠ [] := by
  rintro rfl
  exact absurd h (by decide)

theorem validateDir_ok_iff {aeron_dir : Str} : validateDir aeron_dir = .ok () ↔ aeron_dir ≠ [] := by
  rw [validateDir]
  by_cases h : aeron_dir = []
  · simp [h]
  · simp [h]

theorem validateChannel_ok_iff {channel name : Str} :
    validateChannel channel name = .ok () ↔ StartsWithAeron channel := by
  rw [validateChannel]
  by_cases hnil : channel = []
  · have hno : ¬ StartsWithAeron channel := fun h => h.ne_nil hnil
    simp [hnil, hnil ▸ hno]
  · by_cases hstart : StartsWithAeron channel
    · simp [hnil, hstart]
    · simp [hnil, hstart]

theorem validateStreamId_ok_iff {stream_id : Int32} {name : Str} :
    validateStreamId stream_id name = .ok () ↔ 0 < stream_id := by
  rw [validateStreamId, ← Int32.not_le]
  by_cases h : stream_id ≤ 0
  · simp [h]
  · simp [h]

/-- What the check looks at. -/
structure Valid (s : AeronSettings) : Prop where
  aeron_dir : s.aeron_dir ≠ []
  archive_control_request_channel : StartsWithAeron s.archive_control_request_channel
  publication_channel : StartsWithAeron s.publication_channel
  subscription_channel : StartsWithAeron s.subscription_channel
  replay_channel : StartsWithAeron s.replay_channel
  publication_stream_id : 0 < s.publication_stream_id
  subscription_stream_id : 0 < s.subscription_stream_id
  replay_stream_id : 0 < s.replay_stream_id

/-- One check after the other. -/
theorem bind_ok_iff {e : Except Str Unit} {f : Unit → Except Str Unit} :
    (e >>= f) = .ok () ↔ e = .ok () ∧ f () = .ok () := by
  rw [ok_of_bind]
  constructor
  · rintro ⟨_, he, hf⟩
    exact ⟨he, hf⟩
  · rintro ⟨he, hf⟩
    exact ⟨(), he, hf⟩

/-- **What passes the check**; the response channel is not part of it. -/
theorem validate_ok_iff (s : AeronSettings) : s.validate = .ok () ↔ s.Valid := by
  simp only [validate, bind_ok_iff, validateDir_ok_iff, validateChannel_ok_iff,
    validateStreamId_ok_iff]
  constructor
  · rintro ⟨h₁, h₂, h₃, h₄, h₅, h₆, h₇, h₈⟩
    exact ⟨h₁, h₂, h₃, h₄, h₅, h₆, h₇, h₈⟩
  · rintro ⟨h₁, h₂, h₃, h₄, h₅, h₆, h₇, h₈⟩
    exact ⟨h₁, h₂, h₃, h₄, h₅, h₆, h₇, h₈⟩

/-- The defaults pass their own check. -/
theorem validate_default : ({} : AeronSettings).validate = .ok () := by decide

/-! ## The text -/

def banner : Str := "========================================".toList

/-- The lines that are written to `std::cout`. -/
def printed (s : AeronSettings) : List Str :=
  [banner,
    "Aeron Configuration".toList,
    banner,
    "[aeron]".toList,
    "  dir = ".toList ++ s.aeron_dir,
    -- every later header is written with a line end in front of it
    [], "[archive]".toList,
    "  control_request_channel = ".toList ++ s.archive_control_request_channel,
    "  control_response_channel = ".toList ++ s.archive_control_response_channel,
    [], "[publication]".toList,
    "  channel = ".toList ++ s.publication_channel,
    "  stream_id = ".toList ++ decimal s.publication_stream_id.toInt,
    [], "[subscription]".toList,
    "  channel = ".toList ++ s.subscription_channel,
    "  stream_id = ".toList ++ decimal s.subscription_stream_id.toInt,
    [], "[replay]".toList,
    "  channel = ".toList ++ s.replay_channel,
    "  stream_id = ".toList ++ decimal s.replay_stream_id.toInt,
    [], "[timeouts]".toList,
    "  idle_sleep_ms = ".toList ++ decimal s.idle_sleep_ms.toInt,
    "  message_timeout_ns = ".toList ++ decimal s.message_timeout_ns.toInt,
    banner]

/-- The text that is written. -/
def print (s : AeronSettings) : Str := unlines '\n' s.printed

end AeronSettings

end AeronReplay
