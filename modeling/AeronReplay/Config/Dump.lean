import AeronReplay.Config.Loader
import AeronReplay.Config.Layout

set_option autoImplicit false

/-! # Dumping and loading

What `AeronSettings::print` writes is an INI file for the same settings:
`loadFromFile_print` says that loading it gives the settings back. The banner and the title are
no obstacle, since nothing is assigned before the first section, and a banner after it assigns to
the empty key of the last section, which nothing reads. -/

namespace AeronReplay

open Text Decimal

namespace ConfigLoader

/-! ## What the printed lines are -/

/-- A name as the settings have them. -/
def Plain (name : Str) : Prop := name ≠ [] ∧ ∀ c ∈ name, c.isAlpha = true ∨ c = '_'

-- the characters of the name are run through, not those of the alphabet
instance (name : Str) : Decidable (Plain name) :=
  have : Decidable (∀ c ∈ name, c.isAlpha = true ∨ c = '_') := List.decidableBAll _ name
  inferInstanceAs (Decidable (name ≠ [] ∧ ∀ c ∈ name, c.isAlpha = true ∨ c = '_'))

/-- A printed line with a key and its value. -/
def entry (key value : Str) : Str := "  ".toList ++ key ++ " = ".toList ++ value

/-- A key and its value, the key being a plain name. -/
structure Entry where
  key : Str
  value : Str
  plain : Plain key := by decide

/-- The printed lines of a section. -/
def sectionLines (name : Str) (entries : List Entry) : List Str :=
  ('[' :: name ++ [']']) :: entries.map fun e => entry e.key e.value

variable {name key value cur : Str}

theorem Plain.not_mem (h : Plain name) {c : Char} (hc : c.isAlpha = false) (hne : c ≠ '_') :
    c ∉ name := by
  intro hmem
  rcases h.2 c hmem with halpha | rfl
  · rw [hc] at halpha
    exact Bool.noConfusion halpha
  · exact hne rfl

theorem Plain.isBlank_of_mem (h : Plain name) {c : Char} (hc : c ∈ name) : isBlank c = false := by
  rw [Bool.eq_false_iff]
  intro hblank
  simp only [isBlank, Bool.or_eq_true, beq_iff_eq] at hblank
  rcases hblank with ((rfl | rfl) | rfl) | rfl
  · exact h.not_mem (by decide) (by decide) hc
  · exact h.not_mem (by decide) (by decide) hc
  · exact h.not_mem (by decide) (by decide) hc
  · exact h.not_mem (by decide) (by decide) hc

theorem Plain.trim_eq (h : Plain name) : trim name = name :=
  strip_of_ends (fun _ hc => h.isBlank_of_mem (List.mem_of_mem_head? hc))
    fun _ hc => h.isBlank_of_mem (List.mem_of_mem_getLast? hc)

/-- A printed entry assigns to its key. -/
theorem classify_entry (h : Plain key) (value : Str) :
    classify (entry key value) = .assignment key (trim value) := by
  obtain ⟨c, rest, rfl⟩ := List.exists_cons_of_ne_nil h.1
  have hhead : (trim (entry (c :: rest) value)).head? = some c := by
    have hfront : entry (c :: rest) value
        = "  ".toList ++ c :: (rest ++ " = ".toList ++ value) := by simp [entry]
    rw [head?_trim, hfront, List.find?_append, find?_padding (by decide), Option.none_or,
      List.find?_cons_of_pos]
    rw [h.isBlank_of_mem List.mem_cons_self]
    rfl
  refine classify_eq_assignment_iff.mpr ⟨?_, ?_, "  ".toList ++ (c :: rest) ++ " ".toList,
    ' ' :: value, ?_, by simp [entry], ?_, ?_⟩
  · rw [isComment_iff, hhead]
    rintro (hc | hc)
    · exact h.not_mem (c := '#') (by decide) (by decide) (by simp [Option.some.inj hc])
    · exact h.not_mem (c := ';') (by decide) (by decide) (by simp [Option.some.inj hc])
  · intro n hn
    have hc := (isHeader_iff.mp ⟨n, hn⟩).1
    rw [hhead] at hc
    exact h.not_mem (c := '[') (by decide) (by decide) (by simp [Option.some.inj hc])
  · have heq := h.not_mem (c := '=') (by decide) (by decide)
    simpa using heq
  · have hpad : trim ("  ".toList ++ (c :: rest) ++ " ".toList) = trim (c :: rest) :=
      strip_pad (by decide) (by decide) _
    rw [hpad, h.trim_eq]
  · exact strip_pad_front (a := [' ']) (by decide) value

/-- **What a printed section assigns**, whatever section was current before. -/
theorem assignments_sectionLines (hname : Plain name) (entries : List Entry) (cur : Str)
    (rest : List Str) :
    assignments cur (sectionLines name entries ++ rest)
      = entries.map (fun e => (name, e.key, trim e.value)) ++ assignments name rest := by
  rw [sectionLines, List.cons_append, assignments, classify_header (isHeader_brackets name),
    hname.trim_eq]
  change assignments name (entries.map (fun e => entry e.key e.value) ++ rest) = _
  induction entries with
  | nil => rfl
  | cons e entries ih =>
      rw [List.map_cons, List.cons_append, assignments, classify_entry e.plain]
      simp only [if_neg hname.1]
      rw [ih, List.map_cons, List.cons_append]

/-! ## The printed text -/

/-- The lines of the printed text. -/
def printedLines (s : AeronSettings) : List Str :=
  [AeronSettings.banner, "Aeron Configuration".toList, AeronSettings.banner]
  ++ (sectionLines "aeron".toList [{ key := "dir".toList, value := s.aeron_dir }]
  ++ ([] :: (sectionLines "archive".toList
    [{ key := "control_request_channel".toList, value := s.archive_control_request_channel },
      { key := "control_response_channel".toList, value := s.archive_control_response_channel }]
  ++ ([] :: (sectionLines "publication".toList
    [{ key := "channel".toList, value := s.publication_channel },
      { key := "stream_id".toList, value := decimal s.publication_stream_id.toInt }]
  ++ ([] :: (sectionLines "subscription".toList
    [{ key := "channel".toList, value := s.subscription_channel },
      { key := "stream_id".toList, value := decimal s.subscription_stream_id.toInt }]
  ++ ([] :: (sectionLines "replay".toList
    [{ key := "channel".toList, value := s.replay_channel },
      { key := "stream_id".toList, value := decimal s.replay_stream_id.toInt }]
  ++ ([] :: (sectionLines "timeouts".toList
    [{ key := "idle_sleep_ms".toList, value := decimal s.idle_sleep_ms.toInt },
      { key := "message_timeout_ns".toList, value := decimal s.message_timeout_ns.toInt }]
  ++ [AeronSettings.banner])))))))))))

theorem printed_eq (s : AeronSettings) : s.printed = printedLines s := by rfl

/-- What the printed text assigns, the last banner included. -/
def printedAssignments (s : AeronSettings) : List (Str × Str × Str) :=
  [("aeron".toList, "dir".toList, trim s.aeron_dir),
    ("archive".toList, "control_request_channel".toList, trim s.archive_control_request_channel),
    ("archive".toList, "control_response_channel".toList,
      trim s.archive_control_response_channel),
    ("publication".toList, "channel".toList, trim s.publication_channel),
    ("publication".toList, "stream_id".toList, trim (decimal s.publication_stream_id.toInt)),
    ("subscription".toList, "channel".toList, trim s.subscription_channel),
    ("subscription".toList, "stream_id".toList, trim (decimal s.subscription_stream_id.toInt)),
    ("replay".toList, "channel".toList, trim s.replay_channel),
    ("replay".toList, "stream_id".toList, trim (decimal s.replay_stream_id.toInt)),
    ("timeouts".toList, "idle_sleep_ms".toList, trim (decimal s.idle_sleep_ms.toInt)),
    ("timeouts".toList, "message_timeout_ns".toList, trim (decimal s.message_timeout_ns.toInt)),
    ("timeouts".toList, [], AeronSettings.banner.drop 1)]

theorem assignments_printedLines (s : AeronSettings) :
    assignments [] (printedLines s) = printedAssignments s := by
  have hblank : ∀ (cur : Str) (ls : List Str), assignments cur ([] :: ls) = assignments cur ls :=
    fun cur ls => by rw [assignments, classify_blank Padding.nil]
  -- nothing before the first section is assigned
  have hfront : assignments [] [AeronSettings.banner, "Aeron Configuration".toList,
      AeronSettings.banner] = [] := by rfl
  have hbanner : assignments "timeouts".toList [AeronSettings.banner]
      = [("timeouts".toList, [], AeronSettings.banner.drop 1)] := by rfl
  rw [printedLines, assignments_append, hfront, List.nil_append]
  simp (disch := decide) only [hblank, assignments_sectionLines, hbanner]
  rfl

/-! ## Loading the printed text -/

/-- A text without a line end, and with no blank, tab or carriage return at its ends. -/
def Clean (str : Str) : Prop :=
  '\n' ∉ str ∧ (∀ c ∈ str.head?, c ≠ ' ' ∧ c ≠ '\t' ∧ c ≠ '\r') ∧
    ∀ c ∈ str.getLast?, c ≠ ' ' ∧ c ≠ '\t' ∧ c ≠ '\r'

instance (str : Str) : Decidable (Clean str) :=
  have (end? : Option Char) : Decidable (∀ c ∈ end?, c ≠ ' ' ∧ c ≠ '\t' ∧ c ≠ '\r') :=
    Option.decidableForallMem end?
  inferInstanceAs (Decidable ('\n' ∉ str ∧ (∀ c ∈ str.head?, c ≠ ' ' ∧ c ≠ '\t' ∧ c ≠ '\r') ∧
    ∀ c ∈ str.getLast?, c ≠ ' ' ∧ c ≠ '\t' ∧ c ≠ '\r'))

theorem Clean.trim_eq {str : Str} (h : Clean str) : trim str = str := by
  have hblank : ∀ c ∈ str, c ≠ ' ' ∧ c ≠ '\t' ∧ c ≠ '\r' → isBlank c = false := by
    rintro c hc ⟨h₁, h₂, h₃⟩
    have h₄ : c ≠ '\n' := fun e => h.1 (e ▸ hc)
    simp [isBlank, h₁, h₂, h₃, h₄]
  exact strip_of_ends (fun c hc => hblank c (List.mem_of_mem_head? hc) (h.2.1 c hc))
    fun c hc => hblank c (List.mem_of_mem_getLast? hc) (h.2.2 c hc)

/-- The strings of the settings can be read back. -/
structure CleanSettings (s : AeronSettings) : Prop where
  aeron_dir : Clean s.aeron_dir
  archive_control_request_channel : Clean s.archive_control_request_channel
  archive_control_response_channel : Clean s.archive_control_response_channel
  publication_channel : Clean s.publication_channel
  subscription_channel : Clean s.subscription_channel
  replay_channel : Clean s.replay_channel

theorem clean_numeral {str : Str} {n : Int} (h : Numeral str n) : Clean str := by
  have hspace : ∀ c ∈ str, isspace c = false := fun c hc => isspace_of_numeral h hc
  have hends : ∀ c ∈ str, c ≠ ' ' ∧ c ≠ '\t' ∧ c ≠ '\r' := by
    intro c hc
    refine ⟨?_, ?_, ?_⟩
    · rintro rfl
      exact Bool.noConfusion (hspace _ hc)
    · rintro rfl
      exact Bool.noConfusion (hspace _ hc)
    · rintro rfl
      exact Bool.noConfusion (hspace _ hc)
  exact ⟨fun hc => Bool.noConfusion (hspace _ hc), fun c hc => hends c (List.mem_of_mem_head? hc),
    fun c hc => hends c (List.mem_of_mem_getLast? hc)⟩

theorem clean_decimal (n : Int) : Clean (decimal n) := clean_numeral (numeral_decimal n)

/-- No printed line is broken. -/
theorem noNewline_printed {s : AeronSettings} (h : CleanSettings s) :
    ∀ l ∈ s.printed, '\n' ∉ l := by
  have happ : ∀ {front str : Str}, '\n' ∉ front → Clean str → '\n' ∉ front ++ str := by
    intro front str hfront hstr hmem
    rcases List.mem_append.mp hmem with hm | hm
    · exact hfront hm
    · exact hstr.1 hm
  have hnum : ∀ (front : Str) (n : Int), '\n' ∉ front → '\n' ∉ front ++ decimal n :=
    fun front n hfront => happ hfront (clean_decimal n)
  simp only [AeronSettings.printed, List.forall_mem_cons, List.not_mem_nil, false_imp_iff,
    implies_true, and_true]
  refine ⟨by decide, by decide, by decide, by decide, happ (by decide) h.aeron_dir, by decide,
    by decide, happ (by decide) h.archive_control_request_channel,
    happ (by decide) h.archive_control_response_channel, by decide, by decide,
    happ (by decide) h.publication_channel, hnum _ _ (by decide), by decide, by decide,
    happ (by decide) h.subscription_channel, hnum _ _ (by decide), by decide, by decide,
    happ (by decide) h.replay_channel, hnum _ _ (by decide), by decide, by decide,
    hnum _ _ (by decide), hnum _ _ (by decide), by decide⟩

theorem parseText_print {s : AeronSettings} (h : CleanSettings s) :
    parseText s.print = applyAll (fun _ => none) (printedAssignments s) := by
  have hlines : getLines s.print = s.printed := lines_unlines (noNewline_printed h)
  rw [parseText_eq, hlines, printed_eq, assignments_printedLines]

/-- What the printed text gives a key. -/
theorem valueAt_print {s : AeronSettings} (h : CleanSettings s) (sec key : Str) :
    valueAt (parseText s.print) sec key = (((printedAssignments s).filter
      fun a => a.1 = sec ∧ a.2.1 = key).getLast?).map fun a => a.2.2 := by
  rw [parseText_print h, valueAt_applyAll]

theorem numberIn_decimal {lo hi n : Int} (hlo : lo ≤ n) (hhi : n < hi) :
    numberIn lo hi (decimal n) = some n := by
  refine numberIn_eq_some_iff.mpr ⟨[], ?_, hlo, hhi⟩
  rw [dropWhile_numeral (numeral_decimal n)]
  exact numeral_iff_leading.mp (numeral_decimal n)

/-- Every number that a field can hold fits. -/
theorem NumericKey.field_range (k : NumericKey) (s : AeronSettings) :
    -k.limit ≤ k.field s ∧ k.field s < k.limit := by
  cases k with
  | publication_stream_id => exact ⟨Int32.le_toInt _, Int32.toInt_lt _⟩
  | subscription_stream_id => exact ⟨Int32.le_toInt _, Int32.toInt_lt _⟩
  | replay_stream_id => exact ⟨Int32.le_toInt _, Int32.toInt_lt _⟩
  | idle_sleep_ms => exact ⟨Int64.le_toInt _, Int64.toInt_lt _⟩
  | message_timeout_ns => exact ⟨Int64.le_toInt _, Int64.toInt_lt _⟩

/-- The numbers are printed under their keys. -/
theorem text_print {s : AeronSettings} (h : CleanSettings s) (k : NumericKey) :
    k.text (parseText s.print) = some (decimal (k.field s)) := by
  rw [NumericKey.text, valueAt_print h]
  have htrim : trim (decimal (k.field s)) = decimal (k.field s) := (clean_decimal _).trim_eq
  rw [← htrim]
  cases k with
  | publication_stream_id => rfl
  | subscription_stream_id => rfl
  | replay_stream_id => rfl
  | idle_sleep_ms => rfl
  | message_timeout_ns => rfl

/-- So are the texts. -/
theorem textsFrom_print {s : AeronSettings} (h : CleanSettings s) :
    TextsFrom (parseText s.print) s := by
  refine ⟨?_, ?_, ?_, ?_, ?_, ?_⟩
  · rw [readText, valueAt_print h]
    exact h.aeron_dir.trim_eq.symm
  · rw [readText, valueAt_print h]
    exact h.archive_control_request_channel.trim_eq.symm
  · rw [readText, valueAt_print h]
    exact h.archive_control_response_channel.trim_eq.symm
  · rw [readText, valueAt_print h]
    exact h.publication_channel.trim_eq.symm
  · rw [readText, valueAt_print h]
    exact h.subscription_channel.trim_eq.symm
  · rw [readText, valueAt_print h]
    exact h.replay_channel.trim_eq.symm

/-- None of the four variables is set. -/
def NoOverrides (env : Environment) : Prop :=
  env "AERON_DIR".toList = none ∧ env "AERON_ARCHIVE_CONTROL".toList = none ∧
    env "AERON_PUBLICATION_CHANNEL".toList = none ∧
    env "AERON_SUBSCRIPTION_CHANNEL".toList = none

theorem overrideFromEnvironment_of_noOverrides {env : Environment} (h : NoOverrides env)
    (s : AeronSettings) : overrideFromEnvironment env s = s := by
  obtain ⟨h₁, h₂, h₃, h₄⟩ := h
  rw [overrideFromEnvironment, getEnv, getEnv, getEnv, getEnv, h₁, h₂, h₃, h₄]
  rfl

/-- **Dumping and loading are inverse**: settings that pass the check, with strings that a line can
hold, are what loading their printed text returns. -/
theorem loadFromFile_print (s : AeronSettings) (hvalid : s.validate = .ok ())
    (hclean : CleanSettings s) (files : Files) (env : Environment) (filepath : Str)
    (hfile : files filepath = some s.print) (henv : NoOverrides env) :
    loadFromFile files env filepath = .ok s := by
  have hread : readSettings (parseText s.print) = .ok s := by
    refine readSettings_ok_iff.mpr ⟨fun k => ?_, textsFrom_print hclean⟩
    rw [NumericKey.ReadAs, text_print hclean]
    exact numberIn_decimal (k.field_range s).1 (k.field_range s).2
  exact loadFromFile_ok_iff.mpr ⟨_, s, parseINI_of_read hfile, hread,
    (overrideFromEnvironment_of_noOverrides henv s).symm, (s.validate_ok_iff).mp hvalid⟩

/-- Settings with the characters of the format in their strings and the largest numbers. -/
def delimiterSettings : AeronSettings where
  aeron_dir := "/srv/[a]=b;c#d".toList
  archive_control_request_channel := "aeron:udp?endpoint=archive:8010|alias=x;y".toList
  archive_control_response_channel := "#[none]".toList
  publication_channel := "aeron:ipc?term-length=64k".toList
  publication_stream_id := 2147483647
  subscription_channel := "aeron:udp?endpoint=[::1]:40457".toList
  subscription_stream_id := 1
  replay_channel := "aeron:=".toList
  replay_stream_id := 7
  idle_sleep_ms := -9223372036854775808
  message_timeout_ns := 9223372036854775807

/-- They survive being dumped. -/
theorem loadFromFile_print_delimiters :
    loadFromFile (fun _ => some delimiterSettings.print) (fun _ => none) "f.ini".toList
      = .ok delimiterSettings := by
  have hclean : CleanSettings delimiterSettings :=
    ⟨by decide, by decide, by decide, by decide, by decide, by decide⟩
  have hvalid : delimiterSettings.validate = .ok () := by decide
  exact loadFromFile_print delimiterSettings hvalid hclean _ _ _ rfl ⟨rfl, rfl, rfl, rfl⟩

end ConfigLoader

end AeronReplay
