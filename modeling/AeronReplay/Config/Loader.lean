import AeronReplay.Config.Settings
import Mathlib.Algebra.Group.Int.Defs

set_option autoImplicit false

/-! # The configuration loader

`ConfigLoader::loadFromFile` (`ConfigLoader.cpp`): defaults, the values of an INI file, the
environment, and a check of the result. `loadFromFile_ok_iff` says which settings it returns and
`exists_loadFromFile_iff` for which files it returns any. `numbers_read_whole_iff` says for which
files no number of a file is read from a part of its text only.

What is printed is left out. -/

namespace AeronReplay

open Text Decimal

/-- The environment: the value of each variable that is set. -/
abbrev Environment := Str → Option Str

namespace ConfigLoader

/-! ## Numbers -/

/-- `isspace` in the C locale. -/
def isspace (c : Char) : Bool := c == ' ' || (9 ≤ c.toNat && c.toNat ≤ 13)

/-- What `std::stoi` and `std::stoll` do: white space is skipped, and the longest decimal numeral
that follows is the result unless it is out of range. Whatever comes after it is not looked at. -/
def numberIn (lo hi : Int) (str : Str) : Option Int :=
  match leading (str.dropWhile isspace) with
  | none => none
  | some (n, _) => if lo ≤ n ∧ n < hi then some n else none

def stoi (str : Str) : Option Int32 := (numberIn (-2 ^ 31) (2 ^ 31) str).map Int32.ofInt

def stoll (str : Str) : Option Int64 := (numberIn (-2 ^ 63) (2 ^ 63) str).map Int64.ofInt

def parseInt (str key : Str) : Except Str Int32 :=
  match stoi str with
  | some n => .ok n
  | none => .error ("Failed to parse integer for '".toList ++ key ++ "': ".toList ++ str)

def parseLongLong (str key : Str) : Except Str Int64 :=
  match stoll str with
  | some n => .ok n
  | none => .error ("Failed to parse long long for '".toList ++ key ++ "': ".toList ++ str)

/-! ## Loading -/

/-- The value of a key, if the section and the key are there, else what the field holds. -/
def readText (ini_data : IniData) (ini_section key current : Str) : Str :=
  (valueAt ini_data ini_section key).getD current

/-- The same for a number; the name of the key is part of the message if it has none. -/
def readNumber {β : Type} (parse : Str → Str → Except Str β) (ini_data : IniData)
    (ini_section key : Str) (current : β) : Except Str β :=
  match valueAt ini_data ini_section key with
  | none => .ok current
  | some str => parse str (ini_section ++ ".".toList ++ key)

/-- The defaults with the values of the file. -/
def readSettings (ini_data : IniData) : Except Str AeronSettings := do
  let settings : AeronSettings := {}
  let publication_stream_id ← readNumber parseInt ini_data
    "publication".toList "stream_id".toList settings.publication_stream_id
  let subscription_stream_id ← readNumber parseInt ini_data
    "subscription".toList "stream_id".toList settings.subscription_stream_id
  let replay_stream_id ← readNumber parseInt ini_data
    "replay".toList "stream_id".toList settings.replay_stream_id
  let idle_sleep_ms ← readNumber parseLongLong ini_data
    "timeouts".toList "idle_sleep_ms".toList settings.idle_sleep_ms
  let message_timeout_ns ← readNumber parseLongLong ini_data
    "timeouts".toList "message_timeout_ns".toList settings.message_timeout_ns
  return {
    aeron_dir := readText ini_data "aeron".toList "dir".toList settings.aeron_dir
    archive_control_request_channel := readText ini_data
      "archive".toList "control_request_channel".toList settings.archive_control_request_channel
    archive_control_response_channel := readText ini_data
      "archive".toList "control_response_channel".toList settings.archive_control_response_channel
    publication_channel := readText ini_data
      "publication".toList "channel".toList settings.publication_channel
    publication_stream_id
    subscription_channel := readText ini_data
      "subscription".toList "channel".toList settings.subscription_channel
    subscription_stream_id
    replay_channel := readText ini_data "replay".toList "channel".toList settings.replay_channel
    replay_stream_id
    idle_sleep_ms
    message_timeout_ns }

/-- The lambda `getEnv`: a variable that is not set is empty. -/
def getEnv (env : Environment) (name : Str) : Str := (env name).getD []

/-- An override that is not empty replaces what the field holds. -/
def override (value current : Str) : Str := if value ≠ [] then value else current

def overrideFromEnvironment (env : Environment) (settings : AeronSettings) : AeronSettings :=
  { settings with
    aeron_dir := override (getEnv env "AERON_DIR".toList) settings.aeron_dir
    archive_control_request_channel :=
      override (getEnv env "AERON_ARCHIVE_CONTROL".toList) settings.archive_control_request_channel
    publication_channel :=
      override (getEnv env "AERON_PUBLICATION_CHANNEL".toList) settings.publication_channel
    subscription_channel :=
      override (getEnv env "AERON_SUBSCRIPTION_CHANNEL".toList) settings.subscription_channel }

/-- The settings, if they pass their check. -/
def validated (settings : AeronSettings) : Except Str AeronSettings :=
  match settings.validate with
  | .ok _ => .ok settings
  | .error error_message =>
    .error ("Configuration validation failed: ".toList ++ error_message)

def loadFromFile (files : Files) (env : Environment) (filepath : Str) :
    Except Str AeronSettings := do
  let ini_data ← parseINI files filepath
  let settings ← readSettings ini_data
  validated (overrideFromEnvironment env settings)

def loadDefault : AeronSettings := {}

/-! ## What loading returns -/

/-- The keys with a number. -/
inductive NumericKey where
  | publication_stream_id
  | subscription_stream_id
  | replay_stream_id
  | idle_sleep_ms
  | message_timeout_ns
  deriving DecidableEq

namespace NumericKey

def iniSection : NumericKey → Str
  | publication_stream_id => "publication".toList
  | subscription_stream_id => "subscription".toList
  | replay_stream_id => "replay".toList
  | idle_sleep_ms => "timeouts".toList
  | message_timeout_ns => "timeouts".toList

def key : NumericKey → Str
  | publication_stream_id => "stream_id".toList
  | subscription_stream_id => "stream_id".toList
  | replay_stream_id => "stream_id".toList
  | idle_sleep_ms => "idle_sleep_ms".toList
  | message_timeout_ns => "message_timeout_ns".toList

/-- The stream ids are an `int`, the timeouts a `long long`. -/
def isStreamId : NumericKey → Bool
  | publication_stream_id => true
  | subscription_stream_id => true
  | replay_stream_id => true
  | idle_sleep_ms => false
  | message_timeout_ns => false

/-- The first number that does not fit the type any more. -/
def limit (k : NumericKey) : Int := if k.isStreamId then 2 ^ 31 else 2 ^ 63

/-- What the field of the key holds. -/
def field (k : NumericKey) (s : AeronSettings) : Int :=
  match k with
  | publication_stream_id => s.publication_stream_id.toInt
  | subscription_stream_id => s.subscription_stream_id.toInt
  | replay_stream_id => s.replay_stream_id.toInt
  | idle_sleep_ms => s.idle_sleep_ms.toInt
  | message_timeout_ns => s.message_timeout_ns.toInt

/-- The text that a file gives the key. -/
def text (k : NumericKey) (ini_data : IniData) : Option Str :=
  valueAt ini_data k.iniSection k.key

/-- The number that is read for the key: that of its text, or else its default. -/
def ReadAs (k : NumericKey) (ini_data : IniData) (n : Int) : Prop :=
  match k.text ini_data with
  | none => n = k.field {}
  | some str => numberIn (-k.limit) k.limit str = some n

end NumericKey

theorem numberIn_eq_some_iff {lo hi n : Int} {str : Str} : numberIn lo hi str = some n ↔
    ∃ rest, leading (str.dropWhile isspace) = some (n, rest) ∧ lo ≤ n ∧ n < hi := by
  rw [numberIn]
  cases hlead : leading (str.dropWhile isspace) with
  | none => simp
  | some nr =>
      obtain ⟨m, rest⟩ := nr
      by_cases hrange : lo ≤ m ∧ m < hi
      · simp only [if_pos hrange, Option.some.injEq, Prod.mk.injEq]
        constructor
        · rintro rfl
          exact ⟨rest, ⟨rfl, rfl⟩, hrange⟩
        · rintro ⟨_, ⟨rfl, -⟩, -⟩
          rfl
      · simp only [if_neg hrange, reduceCtorEq, Option.some.injEq, Prod.mk.injEq, false_iff]
        rintro ⟨_, ⟨rfl, -⟩, h⟩
        exact hrange h

section

variable {β : Type} {toInt : β → Int} {ofInt : Int → β} {lo hi : Int} {str : Str}

/-- A number that is converted to a type it fits. -/
theorem map_numberIn_eq_some_iff (hto : ∀ n, lo ≤ n → n < hi → toInt (ofInt n) = n)
    (hof : ∀ x, ofInt (toInt x) = x) {x : β} :
    (numberIn lo hi str).map ofInt = some x ↔ numberIn lo hi str = some (toInt x) := by
  rw [Option.map_eq_some_iff]
  constructor
  · rintro ⟨n, hn, rfl⟩
    obtain ⟨_, -, hlo, hhi⟩ := numberIn_eq_some_iff.mp hn
    rw [hto n hlo hhi, hn]
  · intro h
    exact ⟨_, h, hof x⟩

theorem parseInt_ok_iff {key : Str} {x : Int32} :
    parseInt str key = .ok x ↔ numberIn (-2 ^ 31) (2 ^ 31) str = some x.toInt := by
  have hstoi : stoi str = some x ↔ numberIn (-2 ^ 31) (2 ^ 31) str = some x.toInt :=
    map_numberIn_eq_some_iff (fun _ hlo hhi => Int32.toInt_ofInt_of_le hlo hhi) Int32.ofInt_toInt
  rw [← hstoi, parseInt]
  cases stoi str with
  | none => simp
  | some n => simp

theorem parseLongLong_ok_iff {key : Str} {x : Int64} :
    parseLongLong str key = .ok x ↔ numberIn (-2 ^ 63) (2 ^ 63) str = some x.toInt := by
  have hstoll : stoll str = some x ↔ numberIn (-2 ^ 63) (2 ^ 63) str = some x.toInt :=
    map_numberIn_eq_some_iff (fun _ hlo hhi => Int64.toInt_ofInt_of_le hlo hhi) Int64.ofInt_toInt
  rw [← hstoll, parseLongLong]
  cases stoll str with
  | none => simp
  | some n => simp

/-- What is read for a key is what its field held or the number of its text. -/
theorem readNumber_ok_iff {parse : Str → Str → Except Str β}
    (hparse : ∀ {str key x}, parse str key = .ok x ↔ numberIn lo hi str = some (toInt x))
    (hinj : ∀ {x y}, toInt x = toInt y ↔ x = y) {ini_data : IniData} {sec key : Str}
    {current x : β} : readNumber parse ini_data sec key current = .ok x ↔
      match valueAt ini_data sec key with
      | none => toInt x = toInt current
      | some str => numberIn lo hi str = some (toInt x) := by
  rw [readNumber]
  cases valueAt ini_data sec key with
  | none => simp [hinj, eq_comm]
  | some str => exact hparse

end

/-- The text fields that the file gives, each from its own key. -/
structure TextsFrom (ini_data : IniData) (s : AeronSettings) : Prop where
  aeron_dir : s.aeron_dir = readText ini_data "aeron".toList "dir".toList AeronConfig.AERON_DIR
  archive_control_request_channel : s.archive_control_request_channel = readText ini_data
    "archive".toList "control_request_channel".toList AeronConfig.ARCHIVE_CONTROL_REQUEST_CHANNEL
  archive_control_response_channel : s.archive_control_response_channel = readText ini_data
    "archive".toList "control_response_channel".toList AeronConfig.ARCHIVE_CONTROL_RESPONSE_CHANNEL
  publication_channel : s.publication_channel = readText ini_data
    "publication".toList "channel".toList AeronConfig.PUBLICATION_CHANNEL
  subscription_channel : s.subscription_channel = readText ini_data
    "subscription".toList "channel".toList AeronConfig.SUBSCRIPTION_CHANNEL
  replay_channel : s.replay_channel = readText ini_data
    "replay".toList "channel".toList AeronConfig.REPLAY_CHANNEL

/-- **What the file part of loading returns**: every number is read, every text is taken over. -/
theorem readSettings_ok_iff {ini_data : IniData} {s : AeronSettings} :
    readSettings ini_data = .ok s ↔
      (∀ k : NumericKey, k.ReadAs ini_data (k.field s)) ∧ TextsFrom ini_data s := by
  simp only [readSettings, ok_of_bind, readNumber_ok_iff parseInt_ok_iff Int32.toInt_inj,
    readNumber_ok_iff parseLongLong_ok_iff Int64.toInt_inj]
  constructor
  · rintro ⟨p, hp, q, hq, r, hr, i, hi, m, hm, hs⟩
    obtain rfl := Except.ok.inj hs
    refine ⟨fun k => ?_, ⟨rfl, rfl, rfl, rfl, rfl, rfl⟩⟩
    cases k with
    | publication_stream_id => exact hp
    | subscription_stream_id => exact hq
    | replay_stream_id => exact hr
    | idle_sleep_ms => exact hi
    | message_timeout_ns => exact hm
  · rintro ⟨hread, htexts⟩
    refine ⟨_, hread .publication_stream_id, _, hread .subscription_stream_id,
      _, hread .replay_stream_id, _, hread .idle_sleep_ms, _, hread .message_timeout_ns, ?_⟩
    obtain ⟨h₁, h₂, h₃, h₄, h₅, h₆⟩ := htexts
    cases s with
    | mk =>
        simp only at h₁ h₂ h₃ h₄ h₅ h₆
        subst h₁ h₂ h₃ h₄ h₅ h₆
        rfl

theorem validated_ok_iff {s s' : AeronSettings} : validated s = .ok s' ↔ s' = s ∧ s.Valid := by
  rw [← AeronSettings.validate_ok_iff, validated]
  cases s.validate with
  | error message => simp
  | ok u => simp [eq_comm]

/-- The environment has no numbers. -/
theorem field_overrideFromEnvironment (env : Environment) (s : AeronSettings) (k : NumericKey) :
    k.field (overrideFromEnvironment env s) = k.field s := by
  cases k <;> rfl

variable {files : Files} {env : Environment} {filepath : Str} {s : AeronSettings}

/-- **What loading returns**: the values of the file under those of the environment, if they pass
the check. -/
theorem loadFromFile_ok_iff : loadFromFile files env filepath = .ok s ↔
    ∃ ini_data r, parseINI files filepath = .ok ini_data ∧ readSettings ini_data = .ok r ∧
      s = overrideFromEnvironment env r ∧ s.Valid := by
  simp only [loadFromFile, ok_of_bind, validated_ok_iff]
  constructor
  · rintro ⟨ini_data, hini, r, hr, rfl, hvalid⟩
    exact ⟨ini_data, r, hini, hr, rfl, hvalid⟩
  · rintro ⟨ini_data, r, hini, hr, rfl, hvalid⟩
    exact ⟨ini_data, hini, r, hr, rfl, hvalid⟩

/-! ## Which files are accepted -/

/-- What a file and the environment must be like for the file to be accepted: every number starts
with one that fits its type, those of the stream ids are positive, and what the file and the
environment give for the directory and the four channels passes the check. -/
structure Accepted (ini_data : IniData) (env : Environment) : Prop where
  numbers : ∀ (k : NumericKey) str, k.text ini_data = some str →
    ∃ n rest, leading (str.dropWhile isspace) = some (n, rest) ∧ -k.limit ≤ n ∧ n < k.limit
  positive : ∀ (k : NumericKey) str n rest, k.isStreamId = true → k.text ini_data = some str →
    leading (str.dropWhile isspace) = some (n, rest) → 0 < n
  aeron_dir : override (getEnv env "AERON_DIR".toList)
    (readText ini_data "aeron".toList "dir".toList AeronConfig.AERON_DIR) ≠ []
  archive_control_request_channel : AeronSettings.StartsWithAeron
    (override (getEnv env "AERON_ARCHIVE_CONTROL".toList)
      (readText ini_data "archive".toList "control_request_channel".toList
        AeronConfig.ARCHIVE_CONTROL_REQUEST_CHANNEL))
  publication_channel : AeronSettings.StartsWithAeron
    (override (getEnv env "AERON_PUBLICATION_CHANNEL".toList)
      (readText ini_data "publication".toList "channel".toList AeronConfig.PUBLICATION_CHANNEL))
  subscription_channel : AeronSettings.StartsWithAeron
    (override (getEnv env "AERON_SUBSCRIPTION_CHANNEL".toList)
      (readText ini_data "subscription".toList "channel".toList AeronConfig.SUBSCRIPTION_CHANNEL))
  replay_channel : AeronSettings.StartsWithAeron
    (readText ini_data "replay".toList "channel".toList AeronConfig.REPLAY_CHANNEL)

namespace NumericKey

theorem readAs_iff_of_text {k : NumericKey} {ini_data : IniData} {str : Str} {n : Int}
    (h : k.text ini_data = some str) : k.ReadAs ini_data n ↔
      ∃ rest, leading (str.dropWhile isspace) = some (n, rest) ∧ -k.limit ≤ n ∧ n < k.limit := by
  rw [ReadAs, h]
  exact numberIn_eq_some_iff

/-- The stream id that a key stands for. -/
theorem positive_of_valid {k : NumericKey} (hk : k.isStreamId = true) (h : s.Valid) :
    0 < k.field s := by
  cases k with
  | publication_stream_id => exact Int32.lt_iff_toInt_lt.mp h.publication_stream_id
  | subscription_stream_id => exact Int32.lt_iff_toInt_lt.mp h.subscription_stream_id
  | replay_stream_id => exact Int32.lt_iff_toInt_lt.mp h.replay_stream_id
  | idle_sleep_ms => exact Bool.noConfusion hk
  | message_timeout_ns => exact Bool.noConfusion hk

/-- The settings with these numbers. -/
def withNumbers (f : NumericKey → Int) (s : AeronSettings) : AeronSettings := { s with
  publication_stream_id := Int32.ofInt (f publication_stream_id)
  subscription_stream_id := Int32.ofInt (f subscription_stream_id)
  replay_stream_id := Int32.ofInt (f replay_stream_id)
  idle_sleep_ms := Int64.ofInt (f idle_sleep_ms)
  message_timeout_ns := Int64.ofInt (f message_timeout_ns) }

theorem field_withNumbers {f : NumericKey → Int} (hf : ∀ k, -k.limit ≤ f k ∧ f k < k.limit)
    (s : AeronSettings) (k : NumericKey) : k.field (withNumbers f s) = f k := by
  cases k with
  | publication_stream_id => exact Int32.toInt_ofInt_of_le (hf _).1 (hf _).2
  | subscription_stream_id => exact Int32.toInt_ofInt_of_le (hf _).1 (hf _).2
  | replay_stream_id => exact Int32.toInt_ofInt_of_le (hf _).1 (hf _).2
  | idle_sleep_ms => exact Int64.toInt_ofInt_of_le (hf _).1 (hf _).2
  | message_timeout_ns => exact Int64.toInt_ofInt_of_le (hf _).1 (hf _).2

/-- The defaults fit their types, and those of the stream ids are positive. -/
theorem field_default (k : NumericKey) : -k.limit ≤ k.field {} ∧ k.field {} < k.limit ∧
    (k.isStreamId = true → 0 < k.field {}) := by
  cases k <;> decide

end NumericKey

theorem accepted_of_loadFromFile (h : loadFromFile files env filepath = .ok s) {ini_data : IniData}
    (hini : parseINI files filepath = .ok ini_data) : Accepted ini_data env := by
  obtain ⟨ini_data', r, hini', hr, rfl, hvalid⟩ := loadFromFile_ok_iff.mp h
  obtain rfl := Except.ok.inj (hini.symm.trans hini')
  obtain ⟨hread, htexts⟩ := readSettings_ok_iff.mp hr
  refine ⟨?_, ?_, ?_, ?_, ?_, ?_, ?_⟩
  · intro k str hstr
    exact ⟨k.field r, (NumericKey.readAs_iff_of_text hstr).mp (hread k)⟩
  · intro k str n rest hk hstr hlead
    obtain ⟨rest', hlead', -, -⟩ := (NumericKey.readAs_iff_of_text hstr).mp (hread k)
    obtain ⟨rfl, -⟩ := Prod.mk.inj (Option.some.inj (hlead.symm.trans hlead'))
    rw [← field_overrideFromEnvironment env r k]
    exact NumericKey.positive_of_valid hk hvalid
  · exact htexts.aeron_dir ▸ hvalid.aeron_dir
  · exact htexts.archive_control_request_channel ▸ hvalid.archive_control_request_channel
  · exact htexts.publication_channel ▸ hvalid.publication_channel
  · exact htexts.subscription_channel ▸ hvalid.subscription_channel
  · exact htexts.replay_channel ▸ hvalid.replay_channel

/-- The number of every key of an accepted file. -/
theorem Accepted.exists_numbers {ini_data : IniData} (h : Accepted ini_data env) :
    ∃ f : NumericKey → Int, ∀ k : NumericKey, k.ReadAs ini_data (f k) ∧
      (-k.limit ≤ f k ∧ f k < k.limit) ∧ (k.isStreamId = true → 0 < f k) := by
  have hkey : ∀ k : NumericKey, ∃ n, k.ReadAs ini_data n ∧ (-k.limit ≤ n ∧ n < k.limit) ∧
      (k.isStreamId = true → 0 < n) := by
    intro k
    cases hstr : k.text ini_data with
    | none =>
        obtain ⟨hlo, hhi, hpos⟩ := NumericKey.field_default k
        refine ⟨k.field {}, ?_, ⟨hlo, hhi⟩, hpos⟩
        rw [NumericKey.ReadAs, hstr]
    | some str =>
        obtain ⟨n, rest, hlead, hlo, hhi⟩ := h.numbers k str hstr
        exact ⟨n, (NumericKey.readAs_iff_of_text hstr).mpr ⟨rest, hlead, hlo, hhi⟩, ⟨hlo, hhi⟩,
          fun hk => h.positive k str n rest hk hstr hlead⟩
  exact Classical.skolem.mp hkey

/-- **A file is accepted exactly when it can be read and is like that.** -/
theorem exists_loadFromFile_iff : (∃ s, loadFromFile files env filepath = .ok s) ↔
    ∃ ini_data, parseINI files filepath = .ok ini_data ∧ Accepted ini_data env := by
  constructor
  · rintro ⟨s, h⟩
    obtain ⟨ini_data, r, hini, -⟩ := loadFromFile_ok_iff.mp h
    exact ⟨ini_data, hini, accepted_of_loadFromFile h hini⟩
  · rintro ⟨ini_data, hini, hacc⟩
    obtain ⟨f, hf⟩ := hacc.exists_numbers
    let r : AeronSettings := NumericKey.withNumbers f {
      aeron_dir := readText ini_data "aeron".toList "dir".toList AeronConfig.AERON_DIR
      archive_control_request_channel := readText ini_data "archive".toList
        "control_request_channel".toList AeronConfig.ARCHIVE_CONTROL_REQUEST_CHANNEL
      archive_control_response_channel := readText ini_data "archive".toList
        "control_response_channel".toList AeronConfig.ARCHIVE_CONTROL_RESPONSE_CHANNEL
      publication_channel := readText ini_data "publication".toList "channel".toList
        AeronConfig.PUBLICATION_CHANNEL
      subscription_channel := readText ini_data "subscription".toList "channel".toList
        AeronConfig.SUBSCRIPTION_CHANNEL
      replay_channel := readText ini_data "replay".toList "channel".toList
        AeronConfig.REPLAY_CHANNEL }
    have hfield : ∀ k : NumericKey, k.field r = f k := fun k =>
      NumericKey.field_withNumbers (fun k => (hf k).2.1) _ k
    have hr : readSettings ini_data = .ok r := by
      refine readSettings_ok_iff.mpr ⟨fun k => ?_, ⟨rfl, rfl, rfl, rfl, rfl, rfl⟩⟩
      rw [hfield k]
      exact (hf k).1
    have hpos : ∀ k : NumericKey, k.isStreamId = true → 0 < k.field r := fun k hk => by
      rw [hfield k]
      exact (hf k).2.2 hk
    refine ⟨overrideFromEnvironment env r, loadFromFile_ok_iff.mpr ⟨ini_data, r, hini, hr, rfl, ?_⟩⟩
    exact ⟨hacc.aeron_dir, hacc.archive_control_request_channel, hacc.publication_channel,
      hacc.subscription_channel, hacc.replay_channel,
      Int32.lt_iff_toInt_lt.mpr (hpos .publication_stream_id rfl),
      Int32.lt_iff_toInt_lt.mpr (hpos .subscription_stream_id rfl),
      Int32.lt_iff_toInt_lt.mpr (hpos .replay_stream_id rfl)⟩

/-! ## Numbers that are read from a part of their text -/

/-- Nothing stands before or after the number that the text starts with. -/
def NothingLeft (str : Str) : Prop :=
  ∀ n rest, leading (str.dropWhile isspace) = some (n, rest) →
    rest = [] ∧ str.dropWhile isspace = str

theorem isspace_of_numeral {str : Str} {n : Int} {c : Char} (h : Numeral str n) (hc : c ∈ str) :
    isspace c = false := by
  rcases h.mem hc with hdig | rfl | rfl
  · simp only [Char.isDigit, Bool.and_eq_true, decide_eq_true_eq] at hdig
    have hlo : 48 ≤ c.toNat := hdig.1
    have hspace : c ≠ ' ' := by
      rintro rfl
      exact absurd hlo (by decide)
    simp only [isspace, Bool.or_eq_false_iff, Bool.and_eq_false_iff, beq_eq_false_iff_ne,
      decide_eq_false_iff_not]
    exact ⟨hspace, Or.inr (by omega)⟩
  · rfl
  · rfl

theorem dropWhile_numeral {str : Str} {n : Int} (h : Numeral str n) :
    str.dropWhile isspace = str := by
  cases str with
  | nil => rfl
  | cons c rest =>
      exact List.dropWhile_cons_of_neg (by simp [isspace_of_numeral h List.mem_cons_self])

theorem nothingLeft_of_numeral {str : Str} {n : Int} (h : Numeral str n) : NothingLeft str := by
  intro m rest hlead
  rw [dropWhile_numeral h, numeral_iff_leading.mp h] at hlead
  obtain ⟨-, rfl⟩ := Prod.mk.inj (Option.some.inj hlead)
  exact ⟨rfl, dropWhile_numeral h⟩

/-- Every numeric text of a file that is loaded is as a whole a numeral for the number that is
loaded, which fits the type of its field. -/
def NumbersReadWhole (files : Files) (env : Environment) (filepath : Str) : Prop :=
  ∀ s, loadFromFile files env filepath = .ok s →
    ∀ ini_data, parseINI files filepath = .ok ini_data →
      ∀ (k : NumericKey) str, k.text ini_data = some str →
        ∃ n, Numeral str n ∧ -k.limit ≤ n ∧ n < k.limit ∧ k.field s = n

/-- **Numbers are read whole or rejected exactly for these files**: either the file is not accepted,
or nothing is left before or after the number in any of its numeric texts. -/
theorem numbers_read_whole_iff (files : Files) (env : Environment) (filepath : Str) :
    NumbersReadWhole files env filepath ↔
    (∀ ini_data, parseINI files filepath = .ok ini_data → Accepted ini_data env →
      ∀ (k : NumericKey) str, k.text ini_data = some str → NothingLeft str) := by
  constructor
  · intro hwhole ini_data hini hacc k str hstr
    obtain ⟨s, hs⟩ := exists_loadFromFile_iff.mpr ⟨ini_data, hini, hacc⟩
    obtain ⟨n, hn, -⟩ := hwhole s hs ini_data hini k str hstr
    exact nothingLeft_of_numeral hn
  · intro hleft s hs ini_data hini k str hstr
    have hacc := accepted_of_loadFromFile hs hini
    obtain ⟨ini_data', r, hini', hr, rfl, -⟩ := loadFromFile_ok_iff.mp hs
    obtain rfl := Except.ok.inj (hini.symm.trans hini')
    have hread := (readSettings_ok_iff.mp hr).1 k
    obtain ⟨rest, hlead, hlo, hhi⟩ := (NumericKey.readAs_iff_of_text hstr).mp hread
    obtain ⟨rfl, hdrop⟩ := hleft ini_data hini hacc k str hstr _ _ hlead
    rw [hdrop] at hlead
    exact ⟨k.field r, numeral_iff_leading.mpr hlead, hlo, hhi,
      field_overrideFromEnvironment env r k⟩

/-- `stream_id = 12abc` makes a publisher of stream 12. -/
theorem not_numbers_read_whole :
    loadFromFile (fun _ => some "[publication]\nstream_id = 12abc\n".toList) (fun _ => none)
        "f.ini".toList = .ok { publication_stream_id := 12 } ∧
      ¬ NumbersReadWhole (fun _ => some "[publication]\nstream_id = 12abc\n".toList)
        (fun _ => none) "f.ini".toList := by
  have hload : loadFromFile (fun _ => some "[publication]\nstream_id = 12abc\n".toList)
      (fun _ => none) "f.ini".toList = .ok { publication_stream_id := 12 } := by rfl
  refine ⟨hload, fun hwhole => ?_⟩
  obtain ⟨n, hn, -⟩ := hwhole _ hload _ rfl
    NumericKey.publication_stream_id "12abc".toList rfl
  have hlead : leading "12abc".toList = some (12, "abc".toList) := rfl
  rw [numeral_iff_leading, hlead] at hn
  exact absurd hn (by simp)

end ConfigLoader

end AeronReplay
