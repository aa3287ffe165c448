import AeronReplay.Lib.Text
import Mathlib.Data.List.Induction
import Mathlib.Logic.Relation
import Mathlib.Logic.Function.Basic

set_option autoImplicit false

/-! # The INI parser

`ConfigLoader::parseINI` (`ConfigLoader.cpp`): a loop over the lines of a file that carries the
current section. What it returns is the effect of the assignments of the file, one after the other
(`parseText_eq`), and of several assignments to a key the last one counts (`valueAt_applyAll`). So
the layout of the file does not matter: `parseINI_layout` will say so for lines that are inserted,
padding that is added and section blocks that change places.

The warnings that go to `stderr` are left out, and with them the line number. -/

namespace AeronReplay

open Text

/-- A `std::string`. -/
abbrev Str := List Char

/-- The `std::map` of sections, each a `std::map` from keys to values. -/
abbrev IniData := Str → Option (Str → Option Str)

/-- What reading the file at a path gives, if it can be opened. -/
abbrev Files := Str → Option Str

namespace ConfigLoader

/-- The characters of `" \t\r\n"`. -/
def isBlank (c : Char) : Bool := c == ' ' || c == '\t' || c == '\r' || c == '\n'

def trim (str : Str) : Str := strip isBlank str

/-- One key of a section, which is made if it is not there. -/
def assignKey (section? : Option (Str → Option Str)) (key value : Str) :
    Option (Str → Option Str) :=
  some (Function.update (section?.getD fun _ => none) key (some value))

/-- `result[current_section][key] = value`. -/
def assign (result : IniData) (current_section key value : Str) : IniData :=
  Function.update result current_section (assignKey (result current_section) key value)

/-- What the loop over the lines carries. -/
structure IniState where
  result : IniData
  current_section : Str

/-- One turn of the loop over the lines. -/
def parseLine (st : IniState) (line : Str) : IniState :=
  let line := trim line
  if line = [] ∨ line.head? = some '#' ∨ line.head? = some ';' then st
  else if line.head? = some '[' ∧ line.getLast? = some ']' then
    { st with current_section := trim ((line.drop 1).take (line.length - 2)) }
  else match splitFirst '=' line with
    | none => st
    | some (k, v) =>
      let key := trim k
      let value := trim v
      if st.current_section = [] then st
      else { st with result := assign st.result st.current_section key value }

/-- The lines that `std::getline` reads. -/
def getLines (text : Str) : List Str := lines '\n' text

/-- The map of a file with the given text. -/
def parseText (text : Str) : IniData :=
  ((getLines text).foldl parseLine ⟨fun _ => none, []⟩).result

def parseINI (files : Files) (filepath : Str) : Except Str IniData :=
  match files filepath with
  | none => .error ("Cannot open config file: ".toList ++ filepath)
  | some text => .ok (parseText text)

theorem parseINI_of_read {files : Files} {filepath text : Str} (h : files filepath = some text) :
    parseINI files filepath = .ok (parseText text) := by
  rw [parseINI, h]

/-! ## What a line is -/

/-- What a line is to the loop. -/
inductive LineKind where
  | skipped
  | header (name : Str)
  | assignment (key value : Str)

/-- A section header, once the line is trimmed. -/
def IsHeader (line : Str) (name : Str) : Prop := trim line = '[' :: name ++ [']']

def classify (line : Str) : LineKind :=
  if trim line = [] ∨ (trim line).head? = some '#' ∨ (trim line).head? = some ';' then .skipped
  else if (trim line).head? = some '[' ∧ (trim line).getLast? = some ']' then
    .header (trim (((trim line).drop 1).take ((trim line).length - 2)))
  else match (splitFirst '=' (trim line)).map fun kv => (trim kv.1, trim kv.2) with
    | none => .skipped
    | some (key, value) => .assignment key value

/-- **A turn of the loop does what the line is.** -/
theorem parseLine_eq (st : IniState) (line : Str) : parseLine st line = match classify line with
    | .skipped => st
    | .header name => { st with current_section := name }
    | .assignment key value =>
      if st.current_section = [] then st
      else { st with result := assign st.result st.current_section key value } := by
  simp only [parseLine, classify]
  split
  · rfl
  split
  · rfl
  cases hs : splitFirst '=' (trim line) with
  | none => rfl
  | some kv => rfl

variable {l : Str} {name : Str}

theorem isHeader_iff : (∃ name, IsHeader l name) ↔
    (trim l).head? = some '[' ∧ (trim l).getLast? = some ']' := by
  constructor
  · rintro ⟨name, h⟩
    rw [IsHeader] at h
    rw [h]
    exact ⟨rfl, List.getLast?_concat⟩
  · rintro ⟨hhead, hlast⟩
    cases ht : trim l with
    | nil => simp [ht] at hhead
    | cons c rest =>
        rw [ht] at hhead hlast
        obtain rfl : c = '[' := by simpa using hhead
        have hrest : rest ≠ [] := by
          rintro rfl
          simp at hlast
        rw [List.getLast?_cons_of_ne_nil hrest, List.getLast?_eq_getLast_of_ne_nil hrest] at hlast
        refine ⟨rest.dropLast, ?_⟩
        rw [IsHeader, ht, List.cons_append, ← Option.some.inj hlast, List.dropLast_append_getLast]

theorem classify_header (h : IsHeader l name) : classify l = .header (trim name) := by
  have hmid : ((trim l).drop 1).take ((trim l).length - 2) = name := by
    rw [IsHeader] at h
    simp [h]
  have hhead := (isHeader_iff.mp ⟨name, h⟩).1
  rw [classify, if_neg, if_pos (isHeader_iff.mp ⟨name, h⟩), hmid]
  rintro (hl | hl | hl)
  · simp [hl] at hhead
  · simp [hl] at hhead
  · simp [hl] at hhead

/-- A line that is neither blank nor a comment nor a header is cut at its first `=`. -/
theorem classify_cut (hne : trim l ≠ []) (hcomment : ∀ c ∈ (trim l).head?, c ≠ '#' ∧ c ≠ ';')
    (hheader : ∀ name, ¬ IsHeader l name) : classify l =
      match (splitFirst '=' l).map fun kv => (trim kv.1, trim kv.2) with
      | none => .skipped
      | some (key, value) => .assignment key value := by
  have hcut : (splitFirst '=' (trim l)).map (fun kv => (trim kv.1, trim kv.2))
      = (splitFirst '=' l).map fun kv => (trim kv.1, trim kv.2) := strip_splitFirst rfl l
  rw [classify, if_neg, if_neg, hcut]
  · exact fun h => (isHeader_iff.mpr h).elim hheader
  · rintro (hl | hl | hl)
    · exact hne hl
    · exact (hcomment '#' hl).1 rfl
    · exact (hcomment ';' hl).2 rfl

/-! ## The assignments of a file -/

/-- The section that is current after the lines, if `cur` was before them. -/
def sectionAfter (cur : Str) : List Str → Str
  | [] => cur
  | l :: ls => match classify l with
    | .header name => sectionAfter name ls
    | _ => sectionAfter cur ls

/-- The assignments that the lines make, each with its section, key and value. -/
def assignments (cur : Str) : List Str → List (Str × Str × Str)
  | [] => []
  | l :: ls => match classify l with
    | .skipped => assignments cur ls
    | .header name => assignments name ls
    | .assignment key value =>
      if cur = [] then assignments cur ls else (cur, key, value) :: assignments cur ls

/-- The effect of assignments on a map. -/
def applyAll (result : IniData) (as : List (Str × Str × Str)) : IniData :=
  as.foldl (fun result a => assign result a.1 a.2.1 a.2.2) result

variable {cur : Str} {ls : List Str} {result : IniData}

theorem sectionAfter_append (cur : Str) (a b : List Str) :
    sectionAfter cur (a ++ b) = sectionAfter (sectionAfter cur a) b := by
  induction a generalizing cur with
  | nil => rfl
  | cons l a ih =>
      rw [List.cons_append, sectionAfter, sectionAfter]
      cases classify l with
      | skipped => exact ih cur
      | header name => exact ih name
      | assignment key value => exact ih cur

theorem assignments_append (cur : Str) (a b : List Str) :
    assignments cur (a ++ b) = assignments cur a ++ assignments (sectionAfter cur a) b := by
  induction a generalizing cur with
  | nil => rfl
  | cons l a ih =>
      rw [List.cons_append, assignments, assignments, sectionAfter]
      cases classify l with
      | skipped => exact ih cur
      | header name => exact ih name
      | assignment key value =>
          by_cases hcur : cur = []
          · simp only [if_pos hcur]
            exact ih cur
          · simp only [if_neg hcur, List.cons_append, ih cur]

theorem foldl_parseLine (result : IniData) (cur : Str) (ls : List Str) :
    ls.foldl parseLine ⟨result, cur⟩
      = ⟨applyAll result (assignments cur ls), sectionAfter cur ls⟩ := by
  induction ls generalizing result cur with
  | nil => rfl
  | cons l ls ih =>
      rw [List.foldl_cons, parseLine_eq, assignments, sectionAfter]
      cases classify l with
      | skipped => exact ih result cur
      | header name => exact ih result name
      | assignment key value =>
          by_cases hcur : cur = []
          · simp only [if_pos hcur]
            exact ih result cur
          · simp only [if_neg hcur]
            exact ih _ cur

/-- **The map of a file is the effect of its assignments, in their order.** -/
theorem parseText_eq (text : Str) :
    parseText text = applyAll (fun _ => none) (assignments [] (getLines text)) := by
  rw [parseText, foldl_parseLine]

/-! ## What assignments leave behind -/

/-- The value of a key in a section. -/
def valueAt (result : IniData) (current_section key : Str) : Option Str :=
  (result current_section).bind (· key)

theorem applyAll_append (result : IniData) (as bs : List (Str × Str × Str)) :
    applyAll result (as ++ bs) = applyAll (applyAll result as) bs :=
  List.foldl_append

/-- A section is made by the assignments that are made in it. -/
theorem applyAll_apply (result : IniData) (as : List (Str × Str × Str)) (s : Str) :
    applyAll result as s
      = (as.filter (·.1 = s)).foldl (fun section? a => assignKey section? a.2.1 a.2.2)
        (result s) := by
  induction as generalizing result with
  | nil => rfl
  | cons a as ih =>
      rw [applyAll, List.foldl_cons, ← applyAll, ih]
      by_cases ha : a.1 = s
      · subst ha
        rw [List.filter_cons_of_pos (by simp), List.foldl_cons, assign, Function.update_self]
      · rw [List.filter_cons_of_neg (by simpa using ha), assign,
          Function.update_of_ne (Ne.symm ha)]

/-- **Only the order within a section counts.** -/
theorem applyAll_congr {as bs : List (Str × Str × Str)} (result : IniData)
    (h : ∀ s, as.filter (·.1 = s) = bs.filter (·.1 = s)) :
    applyAll result as = applyAll result bs := by
  funext s
  rw [applyAll_apply, applyAll_apply, h s]

theorem valueAt_assign (result : IniData) (s k v : Str) :
    valueAt (assign result s k v) s k = some v := by
  simp [valueAt, assign, assignKey]

theorem valueAt_assign_of_ne {s s' k k' : Str} (v : Str) (h : ¬ (s' = s ∧ k' = k)) :
    valueAt (assign result s' k' v) s k = valueAt result s k := by
  by_cases hs : s' = s
  · subst hs
    have hk : k ≠ k' := fun hk => h ⟨rfl, hk.symm⟩
    cases hr : result s' with
    | none => simp [valueAt, assign, assignKey, hr, Function.update_of_ne hk]
    | some keys => simp [valueAt, assign, assignKey, hr, Function.update_of_ne hk]
  · simp [valueAt, assign, Function.update_of_ne (Ne.symm hs)]

theorem valueAt_applyAll_of_not_mem {as : List (Str × Str × Str)} {s k : Str}
    (h : ∀ a ∈ as, ¬ (a.1 = s ∧ a.2.1 = k)) :
    valueAt (applyAll result as) s k = valueAt result s k := by
  induction as generalizing result with
  | nil => rfl
  | cons a as ih =>
      rw [applyAll, List.foldl_cons, ← applyAll, ih fun b hb => h b (List.mem_cons_of_mem a hb)]
      exact valueAt_assign_of_ne _ (h a List.mem_cons_self)

/-- **A key has the value of the last assignment to it.** -/
theorem valueAt_applyAll (as : List (Str × Str × Str)) (s k : Str) :
    valueAt (applyAll (fun _ => none) as) s k
      = ((as.filter fun a => a.1 = s ∧ a.2.1 = k).getLast?).map fun a => a.2.2 := by
  induction as using List.reverseRecOn with
  | nil => rfl
  | append_singleton as a ih =>
      have hlast : applyAll (fun _ => none) (as ++ [a])
          = assign (applyAll (fun _ => none) as) a.1 a.2.1 a.2.2 := by
        rw [applyAll_append]
        rfl
      rw [hlast, List.filter_append]
      by_cases ha : a.1 = s ∧ a.2.1 = k
      · obtain ⟨rfl, rfl⟩ := ha
        rw [valueAt_assign, List.filter_cons_of_pos (by simp), List.filter_nil,
          List.getLast?_concat, Option.map_some]
      · rw [valueAt_assign_of_ne _ ha, ih, List.filter_cons_of_neg (by simpa using ha),
          List.filter_nil, List.append_nil]

end ConfigLoader

end AeronReplay
