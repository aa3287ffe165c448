import AeronReplay.Config.Loader
import AeronReplay.Subscriber.FastPath

set_option autoImplicit false

/-! # The two programs' configurations

`main` of the publisher and of the subscriber (`main.cpp`), from the options that `getopt_long`
finds up to the configuration that the `AeronPublisher` or `AeronSubscriber` is made from. The
command line overrides what `ConfigLoader` returns, after the check and without one.

`publisherOptions_spec` and `subscriberOptions_spec` say what the options come to: of an option that
is given several times the last one counts. What is printed is left out. -/

namespace AeronReplay

open Text Decimal ConfigLoader AeronSettings

/-! ## Options -/

section Options

variable {Opt σ β : Type}

/-- The value of an option: that of its last occurrence. -/
def lastGiven (f : Opt → Option β) (args : List Opt) : Option β := (args.filterMap f).getLast?

/-- A variable that one option sets holds the value of its last occurrence. -/
theorem eq_lastGiven {step : σ → Opt → Option σ} {π : σ → β} {f : Opt → Option β}
    (hstep : ∀ o a o', step o a = some o' → π o' = (f a).getD (π o)) {args : List Opt} {o o' : σ}
    (h : args.foldlM step o = some o') : π o' = (lastGiven f args).getD (π o) := by
  induction args generalizing o with
  | nil =>
      obtain rfl : o = o' := Option.some.inj h
      rfl
  | cons a args ih =>
      rw [List.foldlM_cons] at h
      obtain ⟨o₁, ho₁, hrest⟩ := Option.bind_eq_some_iff.mp h
      rw [ih hrest, hstep o a o₁ ho₁, lastGiven, lastGiven]
      cases hf : f a with
      | none => rw [List.filterMap_cons_none hf, Option.getD_none]
      | some b =>
          rw [List.filterMap_cons_some hf, List.getLast?_cons, Option.getD_some, Option.getD_some]

end Options

/-- `std::atoi`: the number the text starts with, or 0. It is read as a `long`, which saturates,
and converted to an `int`. -/
def atoi (str : Str) : Int32 :=
  match leading (str.dropWhile isspace) with
  | none => 0
  | some (n, _) => Int32.ofInt (max (-2 ^ 63) (min n (2 ^ 63 - 1)))

/-- The settings before the overrides: those of the file, if one is named, else the defaults. -/
def loadSettings (files : Files) (env : Environment) (config_file : Str) : Option AeronSettings :=
  if config_file ≠ [] then (loadFromFile files env config_file).toOption else some loadDefault

/-! ## The publisher -/

/-- What `getopt_long` returns, with `optarg`. -/
inductive PublisherOption where
  | config (optarg : Str)
  | aeron_dir (optarg : Str)
  | pub_channel (optarg : Str)
  | pub_stream_id (optarg : Str)
  | archive_control (optarg : Str)
  | archive_response (optarg : Str)
  | interval (optarg : Str)
  | auto_record
  | print_config
  | help
  | unknown

/-- The variables that the options are stored in. -/
structure PublisherOptions where
  config_file : Str := []
  print_config_only : Bool := false
  override_aeron_dir : Str := []
  override_pub_channel : Str := []
  override_pub_stream_id : Int32 := -1
  override_archive_control : Str := []
  override_archive_response : Str := []
  override_interval : Int32 := -1
  auto_record : Bool := false

/-- `PublisherConfig` -/
structure PublisherConfig where
  aeron_dir : Str := "/dev/shm/aeron".toList
  publication_channel : Str := "aeron:udp?endpoint=localhost:40456".toList
  publication_stream_id : Int32 := 10
  archive_control_request_channel : Str := "aeron:udp?endpoint=localhost:8010".toList
  archive_control_response_channel : Str := "aeron:udp?endpoint=localhost:0".toList
  message_interval_ms : Int32 := 100
  auto_record : Bool := false

namespace PublisherMain

/-- One turn of the option loop; `main` returns at `help` and at an unknown option. -/
def readOption (o : PublisherOptions) : PublisherOption → Option PublisherOptions
  | .config optarg => some { o with config_file := optarg }
  | .aeron_dir optarg => some { o with override_aeron_dir := optarg }
  | .pub_channel optarg => some { o with override_pub_channel := optarg }
  | .pub_stream_id optarg => some { o with override_pub_stream_id := atoi optarg }
  | .archive_control optarg => some { o with override_archive_control := optarg }
  | .archive_response optarg => some { o with override_archive_response := optarg }
  | .interval optarg => some { o with override_interval := atoi optarg }
  | .auto_record => some { o with auto_record := true }
  | .print_config => some { o with print_config_only := true }
  | .help => none
  | .unknown => none

/-- Step 3: the command line overrides. -/
def applyOverrides (o : PublisherOptions) (s : AeronSettings) : AeronSettings := { s with
  aeron_dir := override o.override_aeron_dir s.aeron_dir
  publication_channel := override o.override_pub_channel s.publication_channel
  publication_stream_id :=
    if o.override_pub_stream_id ≠ -1 then o.override_pub_stream_id else s.publication_stream_id
  archive_control_request_channel :=
    override o.override_archive_control s.archive_control_request_channel
  archive_control_response_channel :=
    override o.override_archive_response s.archive_control_response_channel }

/-- Step 5: what the publisher is made from. -/
def publisherConfig (o : PublisherOptions) (s : AeronSettings) : PublisherConfig where
  aeron_dir := s.aeron_dir
  publication_channel := s.publication_channel
  publication_stream_id := s.publication_stream_id
  archive_control_request_channel := s.archive_control_request_channel
  archive_control_response_channel := s.archive_control_response_channel
  message_interval_ms := if o.override_interval ≠ -1 then o.override_interval else 100
  auto_record := o.auto_record

/-- `main` up to the `AeronPublisher`, if it gets there. -/
def main (files : Files) (env : Environment) (args : List PublisherOption) :
    Option PublisherConfig := do
  let o ← args.foldlM readOption {}
  let aeron_settings ← loadSettings files env o.config_file
  let aeron_settings := applyOverrides o aeron_settings
  if o.print_config_only then none
  else some (publisherConfig o aeron_settings)

end PublisherMain

/-! ## The subscriber -/

/-- What `getopt_long` returns, with `optarg`. -/
inductive SubscriberOption where
  | config (optarg : Str)
  | aeron_dir (optarg : Str)
  | archive_control (optarg : Str)
  | replay_auto
  | position (optarg : Str)
  | print_config
  | no_gap_recovery
  | gap_tolerance (optarg : Str)
  | no_duplicate_check
  | duplicate_window (optarg : Str)
  | help
  | unknown

/-- The variables that the options are stored in. -/
structure SubscriberOptions where
  config_file : Str := []
  print_config_only : Bool := false
  replay_auto_mode : Bool := false
  start_position : Int64 := 0
  override_aeron_dir : Str := []
  override_archive_control : Str := []
  gap_recovery_enabled : Bool := true
  duplicate_check_enabled : Bool := true
  gap_tolerance_override : Int64 := -1
  duplicate_window_override : Int64 := -1

/-- The whole `SubscriberConfig`, the fields of the fast path first. -/
structure SubscriberMainConfig extends SubscriberConfig where
  aeron_dir : Str := "/home/hesed/shm/aeron-subscriber".toList
  archive_control_channel : Str := []
  subscription_channel : Str := []
  subscription_stream_id : Int32 := 10
  replay_destination : Str := "aeron:udp?endpoint=localhost:40457".toList

namespace SubscriberMain

/-- One turn of the option loop; an exception of `std::stoll` is not caught. -/
def readOption (o : SubscriberOptions) : SubscriberOption → Option SubscriberOptions
  | .config optarg => some { o with config_file := optarg }
  | .aeron_dir optarg => some { o with override_aeron_dir := optarg }
  | .archive_control optarg => some { o with override_archive_control := optarg }
  | .replay_auto => some { o with replay_auto_mode := true }
  | .position optarg => (stoll optarg).map fun n => { o with start_position := n }
  | .print_config => some { o with print_config_only := true }
  | .no_gap_recovery => some { o with gap_recovery_enabled := false }
  | .gap_tolerance optarg => (stoll optarg).map fun n => { o with gap_tolerance_override := n }
  | .no_duplicate_check => some { o with duplicate_check_enabled := false }
  | .duplicate_window optarg =>
    (stoll optarg).map fun n => { o with duplicate_window_override := n }
  | .help => none
  | .unknown => none

def applyOverrides (o : SubscriberOptions) (s : AeronSettings) : AeronSettings := { s with
  aeron_dir := override o.override_aeron_dir s.aeron_dir
  archive_control_request_channel :=
    override o.override_archive_control s.archive_control_request_channel }

/-- Step 6: what the subscriber is made from. -/
def subscriberConfig (o : SubscriberOptions) (s : AeronSettings) : SubscriberMainConfig where
  aeron_dir := s.aeron_dir
  archive_control_channel := s.archive_control_request_channel
  subscription_channel := s.subscription_channel
  subscription_stream_id := s.subscription_stream_id
  replay_destination := s.replay_channel
  gap_recovery_enabled := o.gap_recovery_enabled
  duplicate_check_enabled := o.duplicate_check_enabled
  max_gap_tolerance := if o.gap_tolerance_override > 0 then o.gap_tolerance_override else 5
  duplicate_window_size :=
    if o.duplicate_window_override > 0 then o.duplicate_window_override.toInt.toNat else 1000

/-- `main` up to the `AeronSubscriber`, if it gets there. -/
def main (files : Files) (env : Environment) (args : List SubscriberOption) :
    Option SubscriberMainConfig := do
  let o ← args.foldlM readOption {}
  let aeron_settings ← loadSettings files env o.config_file
  let aeron_settings := applyOverrides o aeron_settings
  if o.print_config_only then none
  else some (subscriberConfig o aeron_settings)

end SubscriberMain

/-! ## What the options say -/

namespace PublisherOption

def config? : PublisherOption → Option Str
  | .config v => some v
  | _ => none

def aeron_dir? : PublisherOption → Option Str
  | .aeron_dir v => some v
  | _ => none

def pub_channel? : PublisherOption → Option Str
  | .pub_channel v => some v
  | _ => none

def pub_stream_id? : PublisherOption → Option Str
  | .pub_stream_id v => some v
  | _ => none

def archive_control? : PublisherOption → Option Str
  | .archive_control v => some v
  | _ => none

def archive_response? : PublisherOption → Option Str
  | .archive_response v => some v
  | _ => none

end PublisherOption

namespace SubscriberOption

def config? : SubscriberOption → Option Str
  | .config v => some v
  | _ => none

def aeron_dir? : SubscriberOption → Option Str
  | .aeron_dir v => some v
  | _ => none

def archive_control? : SubscriberOption → Option Str
  | .archive_control v => some v
  | _ => none

end SubscriberOption

/-- What the publisher's options come to, as far as they are settings. -/
theorem publisherOptions_spec {args : List PublisherOption} {o : PublisherOptions}
    (h : args.foldlM PublisherMain.readOption {} = some o) :
    o.config_file = (lastGiven PublisherOption.config? args).getD [] ∧
    o.override_aeron_dir = (lastGiven PublisherOption.aeron_dir? args).getD [] ∧
    o.override_pub_channel = (lastGiven PublisherOption.pub_channel? args).getD [] ∧
    o.override_pub_stream_id
      = (lastGiven (fun a => a.pub_stream_id?.map atoi) args).getD (-1) ∧
    o.override_archive_control = (lastGiven PublisherOption.archive_control? args).getD [] ∧
    o.override_archive_response = (lastGiven PublisherOption.archive_response? args).getD [] := by
  have hstep : ∀ o a o', PublisherMain.readOption o a = some o' →
      o'.config_file = (a.config?).getD o.config_file ∧
      o'.override_aeron_dir = (a.aeron_dir?).getD o.override_aeron_dir ∧
      o'.override_pub_channel = (a.pub_channel?).getD o.override_pub_channel ∧
      o'.override_pub_stream_id = (a.pub_stream_id?.map atoi).getD o.override_pub_stream_id ∧
      o'.override_archive_control = (a.archive_control?).getD o.override_archive_control ∧
      o'.override_archive_response = (a.archive_response?).getD o.override_archive_response := by
    intro o a o' ho
    cases a with
    | help => exact absurd ho (by simp [PublisherMain.readOption])
    | unknown => exact absurd ho (by simp [PublisherMain.readOption])
    | _ =>
        obtain rfl := Option.some.inj ho
        exact ⟨rfl, rfl, rfl, rfl, rfl, rfl⟩
  exact ⟨eq_lastGiven (fun o a o' ho => (hstep o a o' ho).1) h,
    eq_lastGiven (fun o a o' ho => (hstep o a o' ho).2.1) h,
    eq_lastGiven (fun o a o' ho => (hstep o a o' ho).2.2.1) h,
    eq_lastGiven (fun o a o' ho => (hstep o a o' ho).2.2.2.1) h,
    eq_lastGiven (fun o a o' ho => (hstep o a o' ho).2.2.2.2.1) h,
    eq_lastGiven (fun o a o' ho => (hstep o a o' ho).2.2.2.2.2) h⟩

/-- What the subscriber's options come to, as far as they are settings. -/
theorem subscriberOptions_spec {args : List SubscriberOption} {o : SubscriberOptions}
    (h : args.foldlM SubscriberMain.readOption {} = some o) :
    o.config_file = (lastGiven SubscriberOption.config? args).getD [] ∧
    o.override_aeron_dir = (lastGiven SubscriberOption.aeron_dir? args).getD [] ∧
    o.override_archive_control = (lastGiven SubscriberOption.archive_control? args).getD [] := by
  have hstep : ∀ o a o', SubscriberMain.readOption o a = some o' →
      o'.config_file = (a.config?).getD o.config_file ∧
      o'.override_aeron_dir = (a.aeron_dir?).getD o.override_aeron_dir ∧
      o'.override_archive_control = (a.archive_control?).getD o.override_archive_control := by
    intro o a o' ho
    cases a with
    | position v =>
        rw [SubscriberMain.readOption] at ho
        obtain ⟨n, -, rfl⟩ := Option.map_eq_some_iff.mp ho
        exact ⟨rfl, rfl, rfl⟩
    | gap_tolerance v =>
        rw [SubscriberMain.readOption] at ho
        obtain ⟨n, -, rfl⟩ := Option.map_eq_some_iff.mp ho
        exact ⟨rfl, rfl, rfl⟩
    | duplicate_window v =>
        rw [SubscriberMain.readOption] at ho
        obtain ⟨n, -, rfl⟩ := Option.map_eq_some_iff.mp ho
        exact ⟨rfl, rfl, rfl⟩
    | help => exact absurd ho (by simp [SubscriberMain.readOption])
    | unknown => exact absurd ho (by simp [SubscriberMain.readOption])
    | _ =>
        obtain rfl := Option.some.inj ho
        exact ⟨rfl, rfl, rfl⟩
  exact ⟨eq_lastGiven (fun o a o' ho => (hstep o a o' ho).1) h,
    eq_lastGiven (fun o a o' ho => (hstep o a o' ho).2.1) h,
    eq_lastGiven (fun o a o' ho => (hstep o a o' ho).2.2) h⟩

end AeronReplay
