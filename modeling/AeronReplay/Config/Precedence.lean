import AeronReplay.Config.Programs

set_option autoImplicit false

/-! # Where the values of a configuration come from

`CONFIG_GUIDE.md` gives an order: environment, command line, file, default. The loader looks at the
environment only with a file, and the command line overrides what the loader has checked.
`precedence_iff` says for which inputs the values of the two programs follow the order, and
`checked_iff` for which inputs every value of their configuration has passed a check. -/

namespace AeronReplay

open ConfigLoader AeronSettings

/-! ## The layers of a value -/

/-- Where a value can come from. -/
structure Layers where
  environment : Str
  commandLine : Option Str
  file : Option Str
  default : Str

namespace Layers

/-- The order that the guide gives: environment, command line, file, default. -/
def documented (l : Layers) : Str :=
  if l.environment ≠ [] then l.environment else l.commandLine.getD (l.file.getD l.default)

/-- What loading makes of the layers; without a named file the environment is not looked at. -/
def loaded (l : Layers) (named : Bool) : Str :=
  override (if named then l.environment else []) (l.file.getD l.default)

/-- What a program makes of them. -/
def effective (l : Layers) (named : Bool) : Str :=
  override (l.commandLine.getD []) (l.loaded named)

/-- When the two agree: a variable that is set is given again on the command line, or not overridden
there and looked at or equal to the default; without one, the option is not given an empty value. -/
def Agree (l : Layers) (named : Bool) : Prop :=
  if l.environment = [] then l.commandLine ≠ some []
  else if l.commandLine.getD [] ≠ [] then l.commandLine = some l.environment
  else named = true ∨ l.environment = l.default

theorem override_of_ne {value : Str} (h : value ≠ []) (current : Str) :
    override value current = value := if_pos h

theorem override_nil (current : Str) : override [] current = current := if_neg (by simp)

instance (l : Layers) (named : Bool) : Decidable (l.Agree named) :=
  inferInstanceAs (Decidable (if l.environment = [] then l.commandLine ≠ some []
    else if l.commandLine.getD [] ≠ [] then l.commandLine = some l.environment
    else named = true ∨ l.environment = l.default))

/-- **The effective value is the documented one exactly then**, for a value that has been found not
to be empty. -/
theorem effective_eq_documented_iff {l : Layers} {named : Bool}
    (hfile : named = false → l.file = none) (hne : l.loaded named ≠ []) :
    l.effective named = l.documented ↔ l.Agree named := by
  by_cases henv : l.environment = []
  · have hload : l.loaded named = l.file.getD l.default := by
      rw [loaded, henv, ite_self, override_nil]
    rw [hload] at hne
    rw [effective, hload, documented, if_neg (not_not.mpr henv), Agree, if_pos henv]
    cases hcl : l.commandLine with
    | none => simp [override_nil]
    | some v =>
        by_cases hv : v = []
        · subst hv
          simpa [override_nil] using hne
        · simp [override_of_ne hv, hv]
  · rw [documented, if_pos henv, Agree, if_neg henv, effective]
    by_cases hcl : l.commandLine.getD [] ≠ []
    · rw [if_pos hcl, override_of_ne hcl]
      cases hv : l.commandLine with
      | none => exact absurd (by rw [hv]; rfl) hcl
      | some v => simp
    · rw [if_neg hcl, not_not.mp hcl, override_nil, loaded]
      cases named with
      | true => simp [override_of_ne henv]
      | false =>
          rw [hfile rfl]
          simp [override_nil, eq_comm]

end Layers

/-! ## What loading makes of the layers -/

section Load

variable (files : Files) (env : Environment) (config_file : Str)

/-- The value that the named file, if there is one, gives a key. -/
def fileValue (ini_section key : Str) : Option Str :=
  if config_file ≠ [] then
    (parseINI files config_file).toOption.bind fun ini_data => valueAt ini_data ini_section key
  else none

def dirLayers (commandLine : Option Str) : Layers where
  environment := getEnv env "AERON_DIR".toList
  commandLine
  file := fileValue files config_file "aeron".toList "dir".toList
  default := AeronConfig.AERON_DIR

def requestLayers (commandLine : Option Str) : Layers where
  environment := getEnv env "AERON_ARCHIVE_CONTROL".toList
  commandLine
  file := fileValue files config_file "archive".toList "control_request_channel".toList
  default := AeronConfig.ARCHIVE_CONTROL_REQUEST_CHANNEL

def publicationLayers (commandLine : Option Str) : Layers where
  environment := getEnv env "AERON_PUBLICATION_CHANNEL".toList
  commandLine
  file := fileValue files config_file "publication".toList "channel".toList
  default := AeronConfig.PUBLICATION_CHANNEL

def subscriptionLayers (commandLine : Option Str) : Layers where
  environment := getEnv env "AERON_SUBSCRIPTION_CHANNEL".toList
  commandLine
  file := fileValue files config_file "subscription".toList "channel".toList
  default := AeronConfig.SUBSCRIPTION_CHANNEL

/-- The response channel has no variable. -/
def fileResponse : Str :=
  (fileValue files config_file "archive".toList "control_response_channel".toList).getD
    AeronConfig.ARCHIVE_CONTROL_RESPONSE_CHANNEL

variable {files env config_file} {s : AeronSettings}

theorem fileValue_of_unnamed (h : config_file = []) (ini_section key : Str) :
    fileValue files config_file ini_section key = none := if_neg (not_not.mpr h)

/-- **What the programs start from**: loaded values that pass the check. -/
structure Loaded (files : Files) (env : Environment) (config_file : Str) (s : AeronSettings) :
    Prop where
  valid : s.Valid
  aeron_dir : ∀ cl, s.aeron_dir = (dirLayers files env config_file cl).loaded (config_file ≠ [])
  request : ∀ cl, s.archive_control_request_channel
    = (requestLayers files env config_file cl).loaded (config_file ≠ [])
  publication : ∀ cl, s.publication_channel
    = (publicationLayers files env config_file cl).loaded (config_file ≠ [])
  subscription : ∀ cl, s.subscription_channel
    = (subscriptionLayers files env config_file cl).loaded (config_file ≠ [])
  response : s.archive_control_response_channel = fileResponse files config_file

theorem loaded_of_loadSettings (h : loadSettings files env config_file = some s) :
    Loaded files env config_file s := by
  rw [loadSettings] at h
  by_cases hnamed : config_file = []
  · rw [if_neg (not_not.mpr hnamed)] at h
    obtain rfl := Option.some.inj h
    have hfile : ∀ sec key, fileValue files config_file sec key = none :=
      fun sec key => fileValue_of_unnamed hnamed sec key
    have hload : ∀ l : Layers, l.file = none → l.default = l.loaded (config_file ≠ []) := by
      intro l hl
      simp [Layers.loaded, hnamed, hl, Layers.override_nil]
    refine ⟨(AeronSettings.validate_ok_iff _).mp AeronSettings.validate_default, fun cl => ?_,
      fun cl => ?_, fun cl => ?_, fun cl => ?_, ?_⟩
    · exact hload (dirLayers files env config_file cl) (hfile _ _)
    · exact hload (requestLayers files env config_file cl) (hfile _ _)
    · exact hload (publicationLayers files env config_file cl) (hfile _ _)
    · exact hload (subscriptionLayers files env config_file cl) (hfile _ _)
    · rw [fileResponse, hfile]
      rfl
  · rw [if_pos hnamed] at h
    have hok : loadFromFile files env config_file = .ok s := by
      cases hload : loadFromFile files env config_file with
      | error message =>
          rw [hload] at h
          exact absurd h (by simp [Except.toOption])
      | ok s' =>
          rw [hload] at h
          exact congrArg Except.ok (Option.some.inj h)
    obtain ⟨ini_data, r, hini, hr, rfl, hvalid⟩ := loadFromFile_ok_iff.mp hok
    have hfile : ∀ sec key, fileValue files config_file sec key = valueAt ini_data sec key :=
      fun sec key => by
        rw [fileValue, if_pos hnamed, hini]
        rfl
    have hload : ∀ l : Layers, override l.environment (l.file.getD l.default)
        = l.loaded (config_file ≠ []) := by
      intro l
      simp [Layers.loaded, hnamed]
    obtain ⟨-, htexts⟩ := readSettings_ok_iff.mp hr
    refine ⟨hvalid, fun cl => ?_, fun cl => ?_, fun cl => ?_, fun cl => ?_, ?_⟩
    · rw [← hload, dirLayers, hfile]
      exact congrArg (override (getEnv env "AERON_DIR".toList)) htexts.aeron_dir
    · rw [← hload, requestLayers, hfile]
      exact congrArg (override (getEnv env "AERON_ARCHIVE_CONTROL".toList))
        htexts.archive_control_request_channel
    · rw [← hload, publicationLayers, hfile]
      exact congrArg (override (getEnv env "AERON_PUBLICATION_CHANNEL".toList))
        htexts.publication_channel
    · rw [← hload, subscriptionLayers, hfile]
      exact congrArg (override (getEnv env "AERON_SUBSCRIPTION_CHANNEL".toList))
        htexts.subscription_channel
    · rw [fileResponse, hfile]
      exact htexts.archive_control_response_channel

end Load

/-! ## The programs -/

variable {files : Files} {env : Environment}

theorem publisher_main_eq_some {args : List PublisherOption} {cfg : PublisherConfig}
    (h : PublisherMain.main files env args = some cfg) :
    ∃ o s, args.foldlM PublisherMain.readOption {} = some o ∧
      Loaded files env o.config_file s ∧
      cfg = PublisherMain.publisherConfig o (PublisherMain.applyOverrides o s) := by
  obtain ⟨o, ho, hrest⟩ := Option.bind_eq_some_iff.mp h
  obtain ⟨s, hs, hcfg⟩ := Option.bind_eq_some_iff.mp hrest
  refine ⟨o, s, ho, loaded_of_loadSettings hs, ?_⟩
  split at hcfg
  · exact absurd hcfg (by simp)
  · exact (Option.some.inj hcfg).symm

theorem subscriber_main_eq_some {args : List SubscriberOption} {cfg : SubscriberMainConfig}
    (h : SubscriberMain.main files env args = some cfg) :
    ∃ o s, args.foldlM SubscriberMain.readOption {} = some o ∧
      Loaded files env o.config_file s ∧
      cfg = SubscriberMain.subscriberConfig o (SubscriberMain.applyOverrides o s) := by
  obtain ⟨o, ho, hrest⟩ := Option.bind_eq_some_iff.mp h
  obtain ⟨s, hs, hcfg⟩ := Option.bind_eq_some_iff.mp hrest
  refine ⟨o, s, ho, loaded_of_loadSettings hs, ?_⟩
  split at hcfg
  · exact absurd hcfg (by simp)
  · exact (Option.some.inj hcfg).symm

/-! ## Precedence -/

/-- The layers of the three values that a program uses, and whether a file is named. -/
structure Sources where
  dir : Layers
  control : Layers
  channel : Layers
  named : Bool

namespace Sources

/-- The values that the guide promises. -/
def documented (x : Sources) : Str × Str × Str :=
  (x.dir.documented, x.control.documented, x.channel.documented)

def Agree (x : Sources) : Prop :=
  x.dir.Agree x.named ∧ x.control.Agree x.named ∧ x.channel.Agree x.named

instance (x : Sources) : Decidable x.Agree := inferInstanceAs (Decidable (_ ∧ _ ∧ _))

end Sources

def publisherSources (files : Files) (env : Environment) (args : List PublisherOption) : Sources :=
  let config_file := (lastGiven PublisherOption.config? args).getD []
  { dir := dirLayers files env config_file (lastGiven PublisherOption.aeron_dir? args)
    control := requestLayers files env config_file
      (lastGiven PublisherOption.archive_control? args)
    channel := publicationLayers files env config_file
      (lastGiven PublisherOption.pub_channel? args)
    named := config_file ≠ [] }

/-- The subscriber's channel is not an option. -/
def subscriberSources (files : Files) (env : Environment) (args : List SubscriberOption) :
    Sources :=
  let config_file := (lastGiven SubscriberOption.config? args).getD []
  { dir := dirLayers files env config_file (lastGiven SubscriberOption.aeron_dir? args)
    control := requestLayers files env config_file
      (lastGiven SubscriberOption.archive_control? args)
    channel := subscriptionLayers files env config_file none
    named := config_file ≠ [] }

theorem Loaded.ne_nil {config_file : Str} {s : AeronSettings} (h : Loaded files env config_file s)
    (cl : Option Str) :
    (dirLayers files env config_file cl).loaded (config_file ≠ []) ≠ [] ∧
    (requestLayers files env config_file cl).loaded (config_file ≠ []) ≠ [] ∧
    (publicationLayers files env config_file cl).loaded (config_file ≠ []) ≠ [] ∧
    (subscriptionLayers files env config_file cl).loaded (config_file ≠ []) ≠ [] := by
  rw [← h.aeron_dir cl, ← h.request cl, ← h.publication cl, ← h.subscription cl]
  exact ⟨h.valid.aeron_dir, h.valid.archive_control_request_channel.ne_nil,
    h.valid.publication_channel.ne_nil, h.valid.subscription_channel.ne_nil⟩

/-- An overridden value is the documented one exactly when its layers agree. -/
theorem override_eq_documented_iff {l : Layers} {named : Bool} {value current : Str}
    (hvalue : value = l.commandLine.getD []) (hcurrent : current = l.loaded named)
    (hfile : named = false → l.file = none) (hne : l.loaded named ≠ []) :
    override value current = l.documented ↔ l.Agree named := by
  rw [← Layers.effective_eq_documented_iff hfile hne, Layers.effective, hvalue, hcurrent]

/-- **When the documented precedence holds**: for the three values of the publisher and for those of
the subscriber exactly when their layers agree. -/
theorem precedence_iff (files : Files) (env : Environment) :
    (∀ (args : List PublisherOption) (cfg : PublisherConfig),
      PublisherMain.main files env args = some cfg →
        ((cfg.aeron_dir, cfg.archive_control_request_channel, cfg.publication_channel)
            = (publisherSources files env args).documented ↔
          (publisherSources files env args).Agree)) ∧
    (∀ (args : List SubscriberOption) (cfg : SubscriberMainConfig),
      SubscriberMain.main files env args = some cfg →
        ((cfg.aeron_dir, cfg.archive_control_channel, cfg.subscription_channel)
            = (subscriberSources files env args).documented ↔
          (subscriberSources files env args).Agree)) := by
  have hnone : ∀ {config_file : Str} (sec key : Str), decide (config_file ≠ []) = false →
      fileValue files config_file sec key = none :=
    fun sec key hnamed => fileValue_of_unnamed (by simpa using hnamed) sec key
  constructor
  · intro args cfg h
    obtain ⟨o, s, ho, hs, rfl⟩ := publisher_main_eq_some h
    obtain ⟨hfile, hdir, hchannel, -, hcontrol, -⟩ := publisherOptions_spec ho
    rw [hfile] at hs
    rw [Sources.documented, Prod.mk.injEq, Prod.mk.injEq]
    refine and_congr ?_ (and_congr ?_ ?_)
    · exact override_eq_documented_iff hdir (hs.aeron_dir _) (hnone _ _) (hs.ne_nil _).1
    · exact override_eq_documented_iff hcontrol (hs.request _) (hnone _ _) (hs.ne_nil _).2.1
    · exact override_eq_documented_iff hchannel (hs.publication _) (hnone _ _)
        (hs.ne_nil _).2.2.1
  · intro args cfg h
    obtain ⟨o, s, ho, hs, rfl⟩ := subscriber_main_eq_some h
    obtain ⟨hfile, hdir, hcontrol⟩ := subscriberOptions_spec ho
    rw [hfile] at hs
    rw [Sources.documented, Prod.mk.injEq, Prod.mk.injEq]
    refine and_congr ?_ (and_congr ?_ ?_)
    · exact override_eq_documented_iff hdir (hs.aeron_dir _) (hnone _ _) (hs.ne_nil _).1
    · exact override_eq_documented_iff hcontrol (hs.request _) (hnone _ _) (hs.ne_nil _).2.1
    · have hchannel := override_eq_documented_iff rfl (hs.subscription none) (hnone _ _)
        (hs.ne_nil none).2.2.2
      rwa [show ((subscriptionLayers files env _ none).commandLine.getD []) = ([] : Str) from rfl,
        Layers.override_nil] at hchannel

/-! ### A deployment in which the layers meet -/

def deployedFile : Str := ("[aeron]\ndir=/file\n[archive]\ncontrol_request_channel=aeron:file\n" ++
  "[publication]\nchannel=aeron:file\nstream_id=11\n[subscription]\nchannel=aeron:file\n").toList

def deployedEnvironment : Environment := fun name =>
  if name = "AERON_DIR".toList then some "/env".toList
  else if name = "AERON_PUBLICATION_CHANNEL".toList then some "aeron:env".toList
  else if name = "AERON_SUBSCRIPTION_CHANNEL".toList then some "aeron:env".toList
  else none

def publisherArguments : List PublisherOption := [.config "f.ini".toList,
  .aeron_dir "/env".toList, .archive_control "aeron:cli".toList, .pub_stream_id "12".toList]

def subscriberArguments : List SubscriberOption := [.config "f.ini".toList,
  .aeron_dir "/env".toList, .archive_control "aeron:cli".toList]

/-- The directory and the two channels that come of them. -/
def deployedValues : Str × Str × Str := ("/env".toList, "aeron:cli".toList, "aeron:env".toList)

theorem publisher_deployed : ∃ cfg, PublisherMain.main (fun _ => some deployedFile)
    deployedEnvironment publisherArguments = some cfg :=
  Option.isSome_iff_exists.mp (by decide +kernel)

theorem subscriber_deployed : ∃ cfg, SubscriberMain.main (fun _ => some deployedFile)
    deployedEnvironment subscriberArguments = some cfg :=
  Option.isSome_iff_exists.mp (by decide +kernel)

/-- The directory is given by all three and twice in the same words, the control channel by the
file and an option, the third value by the file and a variable. -/
theorem precedence_iff_deployed :
    (∃ cfg, PublisherMain.main (fun _ => some deployedFile) deployedEnvironment publisherArguments
        = some cfg ∧
      (cfg.aeron_dir, cfg.archive_control_request_channel, cfg.publication_channel)
        = deployedValues) ∧
    (∃ cfg, SubscriberMain.main (fun _ => some deployedFile) deployedEnvironment
        subscriberArguments = some cfg ∧
      (cfg.aeron_dir, cfg.archive_control_channel, cfg.subscription_channel) = deployedValues) := by
  obtain ⟨hpublisher, hsubscriber⟩ :=
    precedence_iff (fun _ => some deployedFile) deployedEnvironment
  constructor
  · have hsources : (publisherSources (fun _ => some deployedFile) deployedEnvironment
          publisherArguments).Agree ∧
        (publisherSources (fun _ => some deployedFile) deployedEnvironment
          publisherArguments).documented = deployedValues := by decide +kernel
    obtain ⟨cfg, hmain⟩ := publisher_deployed
    exact ⟨cfg, hmain, ((hpublisher _ cfg hmain).mpr hsources.1).trans hsources.2⟩
  · have hsources : (subscriberSources (fun _ => some deployedFile) deployedEnvironment
          subscriberArguments).Agree ∧
        (subscriberSources (fun _ => some deployedFile) deployedEnvironment
          subscriberArguments).documented = deployedValues := by decide +kernel
    obtain ⟨cfg, hmain⟩ := subscriber_deployed
    exact ⟨cfg, hmain, ((hsubscriber _ cfg hmain).mpr hsources.1).trans hsources.2⟩

/-- `AERON_DIR` is set, but the command line names another directory. -/
theorem not_precedence :
    ∃ cfg, PublisherMain.main (fun _ => none)
        (fun name => if name = "AERON_DIR".toList then some "/env".toList else none)
        [.aeron_dir "/cli".toList] = some cfg ∧
      cfg.aeron_dir = "/cli".toList ∧
      (cfg.aeron_dir, cfg.archive_control_request_channel, cfg.publication_channel)
        ≠ (publisherSources (fun _ => none)
            (fun name => if name = "AERON_DIR".toList then some "/env".toList else none)
            [.aeron_dir "/cli".toList]).documented := by
  refine ⟨_, rfl, rfl, ?_⟩
  intro h
  exact absurd (congrArg Prod.fst h) (by decide)

/-! ## Values that nothing has checked -/

/-- What a publisher's configuration must be like. -/
structure PublisherConfig.Checked (cfg : PublisherConfig) : Prop where
  aeron_dir : cfg.aeron_dir ≠ []
  publication_channel : StartsWithAeron cfg.publication_channel
  archive_control_request_channel : StartsWithAeron cfg.archive_control_request_channel
  archive_control_response_channel : StartsWithAeron cfg.archive_control_response_channel
  publication_stream_id : 0 < cfg.publication_stream_id

/-- What a subscriber's configuration must be like. -/
structure SubscriberMainConfig.Checked (cfg : SubscriberMainConfig) : Prop where
  aeron_dir : cfg.aeron_dir ≠ []
  subscription_channel : StartsWithAeron cfg.subscription_channel
  archive_control_channel : StartsWithAeron cfg.archive_control_channel
  replay_destination : StartsWithAeron cfg.replay_destination
  subscription_stream_id : 0 < cfg.subscription_stream_id

/-- A channel option that is given is empty, and then ignored, or it is a channel. -/
def ChannelOption (given : Option Str) : Prop := ∀ v, given = some v → v = [] ∨ StartsWithAeron v

/-- What the publisher's inputs must be like: the options that the check comes too early for, and
the response channel of the file, which the check leaves out. -/
structure PublisherInputs (files : Files) (args : List PublisherOption) : Prop where
  pub_channel : ChannelOption (lastGiven PublisherOption.pub_channel? args)
  archive_control : ChannelOption (lastGiven PublisherOption.archive_control? args)
  archive_response : ChannelOption (lastGiven PublisherOption.archive_response? args)
  response : (lastGiven PublisherOption.archive_response? args).getD [] = [] →
    StartsWithAeron (fileResponse files ((lastGiven PublisherOption.config? args).getD []))
  pub_stream_id : ∀ v, lastGiven (fun a => a.pub_stream_id?.map atoi) args = some v →
    v = -1 ∨ 0 < v

/-- A channel that an option may override. -/
theorem startsWithAeron_override_iff {given : Option Str} {current : Str} :
    StartsWithAeron (override (given.getD []) current) ↔
      ChannelOption given ∧ (given.getD [] = [] → StartsWithAeron current) := by
  cases given with
  | none =>
      rw [Option.getD_none, Layers.override_nil]
      exact ⟨fun h => ⟨fun v hv => absurd hv (by simp), fun _ => h⟩, fun h => h.2 rfl⟩
  | some v =>
      rw [Option.getD_some]
      by_cases hv : v = []
      · subst hv
        rw [Layers.override_nil]
        exact ⟨fun h => ⟨fun w hw => Or.inl (Option.some.inj hw).symm, fun _ => h⟩,
          fun h => h.2 rfl⟩
      · rw [Layers.override_of_ne hv]
        constructor
        · intro h
          exact ⟨fun w hw => Or.inr (Option.some.inj hw ▸ h), fun hnil => absurd hnil hv⟩
        · intro h
          exact (h.1 v rfl).resolve_left hv

/-- The same where the check has seen the channel that may be overridden. -/
theorem startsWithAeron_override_iff_of_valid {given : Option Str} {value current : Str}
    (hvalue : value = given.getD []) (hcurrent : StartsWithAeron current) :
    StartsWithAeron (override value current) ↔ ChannelOption given := by
  rw [hvalue, startsWithAeron_override_iff]
  exact and_iff_left fun _ => hcurrent

theorem override_ne_nil {value current : Str} (h : current ≠ []) : override value current ≠ [] := by
  by_cases hv : value = []
  · rw [hv, Layers.override_nil]
    exact h
  · rw [Layers.override_of_ne hv]
    exact hv

/-- A stream id that an option may override. -/
theorem positive_override_iff {given : Option Int32} {current : Int32} (h : 0 < current) :
    (0 < if given.getD (-1) ≠ -1 then given.getD (-1) else current) ↔
      ∀ v, given = some v → v = -1 ∨ 0 < v := by
  cases given with
  | none => simp [h]
  | some v =>
      by_cases hv : v = -1
      · simp [hv, h]
      · simp [hv]

/-- **When no unchecked value is used**: by the publisher exactly when its options and the response
channel of its file are like that, by the subscriber exactly when its archive control option is. -/
theorem checked_iff (files : Files) (env : Environment) :
    (∀ (args : List PublisherOption) (cfg : PublisherConfig),
      PublisherMain.main files env args = some cfg →
        (cfg.Checked ↔ PublisherInputs files args)) ∧
    (∀ (args : List SubscriberOption) (cfg : SubscriberMainConfig),
      SubscriberMain.main files env args = some cfg →
        (cfg.Checked ↔ ChannelOption (lastGiven SubscriberOption.archive_control? args))) := by
  constructor
  · intro args cfg h
    obtain ⟨o, s, ho, hs, rfl⟩ := publisher_main_eq_some h
    obtain ⟨hfile, -, hchannel, hid, hcontrol, hresponse⟩ := publisherOptions_spec ho
    rw [hfile] at hs
    have hpub := startsWithAeron_override_iff_of_valid hchannel hs.valid.publication_channel
    have hreq := startsWithAeron_override_iff_of_valid hcontrol
      hs.valid.archive_control_request_channel
    have hres : StartsWithAeron
        (override o.override_archive_response s.archive_control_response_channel) ↔
          ChannelOption (lastGiven PublisherOption.archive_response? args) ∧
          ((lastGiven PublisherOption.archive_response? args).getD [] = [] → StartsWithAeron
            (fileResponse files ((lastGiven PublisherOption.config? args).getD []))) := by
      rw [hresponse, hs.response]
      exact startsWithAeron_override_iff
    have hstream : (0 < if o.override_pub_stream_id ≠ -1 then o.override_pub_stream_id
        else s.publication_stream_id) ↔
          ∀ v, lastGiven (fun a => a.pub_stream_id?.map atoi) args = some v → v = -1 ∨ 0 < v := by
      rw [hid]
      exact positive_override_iff hs.valid.publication_stream_id
    constructor
    · rintro ⟨-, h₁, h₂, h₃, h₄⟩
      exact ⟨hpub.mp h₁, hreq.mp h₂, (hres.mp h₃).1, (hres.mp h₃).2, hstream.mp h₄⟩
    · rintro ⟨h₁, h₂, h₃, h₄, h₅⟩
      exact ⟨override_ne_nil hs.valid.aeron_dir, hpub.mpr h₁, hreq.mpr h₂, hres.mpr ⟨h₃, h₄⟩,
        hstream.mpr h₅⟩
  · intro args cfg h
    obtain ⟨o, s, ho, hs, rfl⟩ := subscriber_main_eq_some h
    obtain ⟨-, -, hcontrol⟩ := subscriberOptions_spec ho
    have hreq := startsWithAeron_override_iff_of_valid hcontrol
      hs.valid.archive_control_request_channel
    constructor
    · rintro ⟨-, -, h, -, -⟩
      exact hreq.mp h
    · intro h
      exact ⟨override_ne_nil hs.valid.aeron_dir, hs.valid.subscription_channel, hreq.mpr h,
        hs.valid.replay_channel, hs.valid.subscription_stream_id⟩

/-- A file, variables and options: among them, for the publisher, a stream id, and for the second
subscriber a channel that is none. -/
theorem checked_iff_deployed :
    (∃ cfg, PublisherMain.main (fun _ => some deployedFile) deployedEnvironment publisherArguments
        = some cfg ∧ cfg.Checked) ∧
    (∃ cfg, SubscriberMain.main (fun _ => some deployedFile) deployedEnvironment
        subscriberArguments = some cfg ∧ cfg.Checked) ∧
    (∃ cfg, SubscriberMain.main (fun _ => none) deployedEnvironment
        [.archive_control "tcp:cli".toList] = some cfg ∧ ¬ cfg.Checked) := by
  obtain ⟨hpublisher, hsubscriber⟩ := checked_iff (fun _ => some deployedFile) deployedEnvironment
  refine ⟨?_, ?_, ?_⟩
  · obtain ⟨cfg, hmain⟩ := publisher_deployed
    refine ⟨cfg, hmain, (hpublisher _ cfg hmain).mpr ?_⟩
    refine ⟨nofun, ?_, nofun, fun _ => by decide +kernel, ?_⟩
    · rintro v ⟨⟩
      exact Or.inr (by decide)
    · rintro v ⟨⟩
      exact Or.inr (by decide)
  · obtain ⟨cfg, hmain⟩ := subscriber_deployed
    refine ⟨cfg, hmain, (hsubscriber _ cfg hmain).mpr ?_⟩
    rintro v ⟨⟩
    exact Or.inr (by decide)
  · refine ⟨_, rfl, fun hchecked => ?_⟩
    have hchannel := ((checked_iff (fun _ => none) deployedEnvironment).2
      [.archive_control "tcp:cli".toList] _ rfl).mp hchecked "tcp:cli".toList rfl
    exact absurd hchannel (by decide)

/-- A channel on the command line is used as it is. -/
theorem not_checked :
    ∃ cfg, PublisherMain.main (fun _ => none) (fun _ => none) [.pub_channel "tcp:x".toList]
        = some cfg ∧ cfg.publication_channel = "tcp:x".toList ∧ ¬ cfg.Checked := by
  refine ⟨_, rfl, rfl, ?_⟩
  intro h
  exact absurd h.publication_channel (by decide)

end AeronReplay
