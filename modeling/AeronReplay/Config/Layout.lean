import AeronReplay.Config.Ini

set_option autoImplicit false

/-! # The layout of an INI file

Edits of the lines of a file that leave its meaning alone: inserting a line that says nothing,
padding a line or a part of it, and reordering section blocks. `parseINI_layout` says that no
sequence of such edits changes the map that `ConfigLoader::parseINI` returns, and which assignment
to a key is the one that counts. -/

namespace AeronReplay

open Text

namespace ConfigLoader

variable {l l' s k v : Str}

/-! ## Lines that say nothing -/

/-- A comment line. -/
def IsComment (l : Str) : Prop :=
  ∃ a c rest, Padding isBlank a ∧ l = a ++ c :: rest ∧ (c = '#' ∨ c = ';')

/-- A line that is blank, a comment, or neither a header nor a `key = value`. -/
def Ignorable (l : Str) : Prop :=
  Padding isBlank l ∨ IsComment l ∨ ('=' ∉ l ∧ ∀ name, ¬ IsHeader l name)

theorem head?_trim (l : Str) : (trim l).head? = l.find? fun c => !isBlank c :=
  head?_strip isBlank l

theorem getLast?_trim (l : Str) : (trim l).getLast? = l.reverse.find? fun c => !isBlank c :=
  getLast?_strip isBlank l

theorem isComment_iff : IsComment l ↔ (trim l).head? = some '#' ∨ (trim l).head? = some ';' := by
  rw [head?_trim]
  constructor
  · rintro ⟨a, c, rest, ha, rfl, hc⟩
    have hblank : isBlank c = false := by rcases hc with rfl | rfl <;> rfl
    rw [List.find?_append, find?_padding ha, Option.none_or,
      List.find?_cons_of_pos (by simp [hblank])]
    rcases hc with rfl | rfl
    · exact Or.inl rfl
    · exact Or.inr rfl
  · intro h
    have hsplit : ∀ {c : Char}, l.find? (fun c => !isBlank c) = some c → (c = '#' ∨ c = ';') →
        IsComment l := by
      intro c hfind hc
      obtain ⟨-, a, rest, rfl, ha⟩ := List.find?_eq_some_iff_append.mp hfind
      exact ⟨a, c, rest, fun d hd => by simpa using ha d hd, rfl, hc⟩
    rcases h with h | h
    · exact hsplit h (Or.inl rfl)
    · exact hsplit h (Or.inr rfl)

theorem head_of_not_isComment (h : ¬ IsComment l) :
    ∀ c ∈ (trim l).head?, c ≠ '#' ∧ c ≠ ';' := by
  rw [isComment_iff, not_or] at h
  intro c hc
  constructor
  · rintro rfl
    exact h.1 hc
  · rintro rfl
    exact h.2 hc

theorem classify_comment (h : IsComment l) : classify l = .skipped := by
  rw [classify, if_pos]
  exact Or.inr (isComment_iff.mp h)

theorem classify_blank (h : Padding isBlank l) : classify l = .skipped := by
  rw [classify, if_pos]
  exact Or.inl (strip_eq_nil_iff.mpr h)

/-- **The loop skips a line that says nothing.** -/
theorem classify_ignorable (h : Ignorable l) : classify l = .skipped := by
  rcases h with h | h | ⟨heq, hheader⟩
  · exact classify_blank h
  · exact classify_comment h
  by_cases hblank : Padding isBlank l
  · exact classify_blank hblank
  by_cases hcomment : IsComment l
  · exact classify_comment hcomment
  have hne : trim l ≠ [] := fun hnil => hblank (strip_eq_nil_iff.mp hnil)
  rw [classify_cut hne (head_of_not_isComment hcomment) hheader, splitFirst_eq_none_iff.mpr heq]
  rfl

/-! ## Padding -/

/-- The second line is the first one with padding at its ends, around its section name, or around
its `=`. -/
inductive Padded : Str → Str → Prop
  | line {a b : Str} (l : Str) : Padding isBlank a → Padding isBlank b → Padded l (a ++ l ++ b)
  | header {a b : Str} (name : Str) : Padding isBlank a → Padding isBlank b →
      Padded ('[' :: name ++ [']']) ('[' :: (a ++ name ++ b) ++ [']'])
  | assignment {a b : Str} (k v : Str) : Padding isBlank a → Padding isBlank b → '=' ∉ k →
      (∀ name, ¬ IsHeader (k ++ '=' :: v) name) →
      Padded (k ++ '=' :: v) (k ++ a ++ '=' :: (b ++ v))

theorem isHeader_brackets (name : Str) : IsHeader ('[' :: name ++ [']']) name := by
  refine strip_of_ends (fun c hc => ?_) fun c hc => ?_
  · obtain rfl : '[' = c := by simpa using hc
    rfl
  · rw [List.getLast?_concat] at hc
    obtain rfl : ']' = c := by simpa using hc
    rfl

/-- What a line is does not depend on more than its ends and the two parts of its cut, unless it is
a header. -/
theorem classify_congr (hhead : (trim l).head? = (trim l').head?)
    (hlast : (trim l).getLast? = (trim l').getLast?) (hheader : ∀ name, ¬ IsHeader l name)
    (hcut : (splitFirst '=' l).map (fun kv => (trim kv.1, trim kv.2))
      = (splitFirst '=' l').map fun kv => (trim kv.1, trim kv.2)) :
    classify l = classify l' := by
  have hheader' : ∀ name, ¬ IsHeader l' name := fun name h => by
    have hends := isHeader_iff.mp ⟨name, h⟩
    rw [← hhead, ← hlast] at hends
    exact (isHeader_iff.mpr hends).elim hheader
  by_cases hblank : Padding isBlank l
  · have hblank' : Padding isBlank l' := by
      rw [← strip_eq_nil_iff] at hblank ⊢
      rw [← List.head?_eq_none_iff]
      exact hhead.symm.trans (List.head?_eq_none_iff.mpr hblank)
    rw [classify_blank hblank, classify_blank hblank']
  by_cases hcomment : IsComment l
  · have hcomment' : IsComment l' := by
      rw [isComment_iff] at hcomment ⊢
      rwa [← hhead]
    rw [classify_comment hcomment, classify_comment hcomment']
  have hne : trim l ≠ [] := fun hnil => hblank (strip_eq_nil_iff.mp hnil)
  have hno := head_of_not_isComment hcomment
  have hne' : trim l' ≠ [] := fun hnil => hne
    (List.head?_eq_none_iff.mp (hhead.trans (List.head?_eq_none_iff.mpr hnil)))
  rw [classify_cut hne hno hheader, classify_cut hne' (hhead ▸ hno) hheader', hcut]

/-- **Padding does not change what a line is.** -/
theorem classify_padded (h : Padded l l') : classify l = classify l' := by
  cases h with
  | line l ha hb =>
      rw [classify, classify, show trim (_ ++ l ++ _) = trim l from strip_pad ha hb l]
  | header name ha hb =>
      rw [classify_header (isHeader_brackets name), classify_header (isHeader_brackets _),
        show trim (_ ++ name ++ _) = trim name from strip_pad ha hb name]
  | @assignment a b k v ha hb hk hheader =>
      have hrev : Padding isBlank b.reverse := fun c hc => hb c (List.mem_reverse.mp hc)
      have hka : '=' ∉ k ++ a := by
        rw [List.mem_append, not_or]
        exact ⟨hk, fun hmem => Bool.noConfusion (ha '=' hmem)⟩
      refine classify_congr ?_ ?_ hheader ?_
      · rw [head?_trim, head?_trim, List.find?_append, List.find?_append, List.find?_append,
          find?_padding ha, Option.or_none]
        rfl
      · have hsplit : (k ++ a ++ '=' :: (b ++ v)).reverse
            = v.reverse ++ (b.reverse ++ '=' :: (k ++ a).reverse) := by simp
        have hsplit₀ : (k ++ '=' :: v).reverse = v.reverse ++ '=' :: k.reverse := by simp
        rw [getLast?_trim, getLast?_trim, hsplit, hsplit₀, List.find?_append, List.find?_append,
          List.find?_append, find?_padding hrev, Option.none_or]
        rfl
      · rw [splitFirst_eq_some_iff.mpr ⟨hk, rfl⟩, splitFirst_eq_some_iff.mpr ⟨hka, rfl⟩,
          Option.map_some, Option.map_some]
        rw [show trim (k ++ a) = trim k from strip_pad_back ha k,
          show trim (b ++ v) = trim v from strip_pad_front hb v]

/-! ## Section blocks -/

/-- A section block: a header with its lines up to the next header. -/
structure Block where
  header : Str
  name : Str
  body : List Str
  isHeader : ∃ n, IsHeader header n ∧ trim n = name
  noHeader : ∀ l ∈ body, ∀ n, ¬ IsHeader l n

namespace Block

def lines (b : Block) : List Str := b.header :: b.body

/-- What the block assigns. -/
def assignments (b : Block) : List (Str × Str × Str) := ConfigLoader.assignments b.name b.body

end Block

/-- A line that is classified as a header is one. -/
theorem isHeader_of_classify {name : Str} (h : classify l = .header name) :
    ∃ n, IsHeader l n ∧ trim n = name := by
  by_cases hheader : ∃ n, IsHeader l n
  · obtain ⟨n, hn⟩ := hheader
    rw [classify_header hn] at h
    exact ⟨n, hn, LineKind.header.inj h⟩
  · rw [isHeader_iff] at hheader
    rw [classify, if_neg hheader] at h
    split at h
    · exact LineKind.noConfusion h
    · split at h
      · exact LineKind.noConfusion h
      · exact LineKind.noConfusion h

/-- Without a header the section stays the same. -/
theorem sectionAfter_of_noHeader {cur : Str} {ls : List Str}
    (h : ∀ l ∈ ls, ∀ n, ¬ IsHeader l n) : sectionAfter cur ls = cur := by
  induction ls with
  | nil => rfl
  | cons l ls ih =>
      have hrest := ih fun m hm => h m (List.mem_cons_of_mem l hm)
      rw [sectionAfter]
      cases hl : classify l with
      | skipped => exact hrest
      | assignment key value => exact hrest
      | header name =>
          obtain ⟨n, hn, -⟩ := isHeader_of_classify hl
          exact absurd hn (h l List.mem_cons_self n)

/-- Without a header every assignment is made in the section that was current before. -/
theorem section_of_mem_assignments {cur : Str} {ls : List Str} {a : Str × Str × Str}
    (h : ∀ l ∈ ls, ∀ n, ¬ IsHeader l n) (ha : a ∈ assignments cur ls) : a.1 = cur := by
  induction ls with
  | nil => exact absurd ha List.not_mem_nil
  | cons l ls ih =>
      have hrest := ih fun m hm => h m (List.mem_cons_of_mem l hm)
      rw [assignments] at ha
      cases hl : classify l with
      | skipped =>
          rw [hl] at ha
          exact hrest ha
      | header name =>
          obtain ⟨n, hn, -⟩ := isHeader_of_classify hl
          exact absurd hn (h l List.mem_cons_self n)
      | assignment key value =>
          rw [hl] at ha
          by_cases hcur : cur = []
          · exact hrest (by simpa only [if_pos hcur] using ha)
          · rcases List.mem_cons.mp (by simpa only [if_neg hcur] using ha) with rfl | ha
            · rfl
            · exact hrest ha

/-- Blocks assign one after the other, whatever section was current before. -/
theorem assignments_blocks (cur : Str) (bs : List Block) :
    assignments cur (bs.flatMap Block.lines) = bs.flatMap Block.assignments := by
  induction bs generalizing cur with
  | nil => rfl
  | cons b bs ih =>
      obtain ⟨n, hn, hname⟩ := b.isHeader
      rw [List.flatMap_cons, List.flatMap_cons, assignments_append, ih, Block.lines, assignments,
        classify_header hn, hname]
      rfl

/-- Of the blocks only those of a section assign in it. -/
theorem filter_assignments_blocks (s : Str) (bs : List Block) :
    (bs.flatMap Block.assignments).filter (·.1 = s)
      = (bs.filter (·.name = s)).flatMap Block.assignments := by
  induction bs with
  | nil => rfl
  | cons b bs ih =>
      rw [List.flatMap_cons, List.filter_append, ih]
      by_cases hb : b.name = s
      · rw [List.filter_cons_of_pos (by simpa using hb), List.flatMap_cons,
          List.filter_eq_self.mpr]
        intro a ha
        simpa [section_of_mem_assignments b.noHeader ha] using hb
      · rw [List.filter_cons_of_neg (by simpa using hb), List.filter_eq_nil_iff.mpr,
          List.nil_append]
        intro a ha
        simpa [section_of_mem_assignments b.noHeader ha] using hb

/-! ## Edits -/

/-- One edit of the lines of a file. Blocks may be reordered after any lines that are left alone;
those of one section keep their order. -/
inductive Edit : List Str → List Str → Prop
  | insert {l : Str} (pre post : List Str) : Ignorable l → Edit (pre ++ post) (pre ++ l :: post)
  | pad {l l' : Str} (pre post : List Str) : Padded l l' →
      Edit (pre ++ l :: post) (pre ++ l' :: post)
  | reorder (pre : List Str) (bs bs' : List Block) :
      (∀ s, bs'.filter (·.name = s) = bs.filter (·.name = s)) →
      Edit (pre ++ bs.flatMap Block.lines) (pre ++ bs'.flatMap Block.lines)

/-- **An edit does not change what the assignments leave behind.** -/
theorem applyAll_edit {ls ls' : List Str} (h : Edit ls ls') (result : IniData) (cur : Str) :
    applyAll result (assignments cur ls') = applyAll result (assignments cur ls) := by
  cases h with
  | @insert l pre post hl =>
      rw [assignments_append, assignments_append, assignments, classify_ignorable hl]
  | @pad l l' pre post hl =>
      have hrest : assignments (sectionAfter cur pre) (l' :: post)
          = assignments (sectionAfter cur pre) (l :: post) := by
        rw [assignments, assignments, classify_padded hl]
      rw [assignments_append, assignments_append, hrest]
  | reorder pre bs bs' hbs =>
      rw [assignments_append, assignments_append, assignments_blocks, assignments_blocks,
        applyAll_append, applyAll_append]
      apply applyAll_congr
      intro s
      rw [filter_assignments_blocks, filter_assignments_blocks, hbs s]

theorem applyAll_edits {ls ls' : List Str} (h : Relation.EqvGen Edit ls ls') (result : IniData)
    (cur : Str) : applyAll result (assignments cur ls') = applyAll result (assignments cur ls) := by
  induction h with
  | rel ls ls' hedit => exact applyAll_edit hedit result cur
  | refl ls => rfl
  | symm ls ls' _ ih => exact ih.symm
  | trans ls ls' ls'' _ _ ih ih' => exact ih'.trans ih

theorem parseText_edits {t t' : Str} (h : Relation.EqvGen Edit (getLines t) (getLines t')) :
    parseText t' = parseText t := by
  rw [parseText_eq, parseText_eq, applyAll_edits h]

/-! ## The last assignment -/

/-- The lines end inside the section `s`: the last header among them has that name. -/
def Under (s : Str) (ls : List Str) : Prop :=
  ∃ pre, ∃ b : Block, ls = pre ++ b.lines ∧ b.name = s

/-- The line assigns `v` to the key `k` of the section it is in. -/
def Assigns (l k v : Str) : Prop :=
  ¬ IsComment l ∧ (∀ name, ¬ IsHeader l name) ∧
    ∃ k' v', '=' ∉ k' ∧ l = k' ++ '=' :: v' ∧ trim k' = k ∧ trim v' = v

theorem sectionAfter_block (cur : Str) (pre : List Str) (b : Block) :
    sectionAfter cur (pre ++ b.lines) = b.name := by
  obtain ⟨n, hn, hname⟩ := b.isHeader
  rw [sectionAfter_append, Block.lines, sectionAfter, classify_header hn, hname]
  exact sectionAfter_of_noHeader b.noHeader

/-- The current section is the one that the lines end in. -/
theorem sectionAfter_eq_iff (hs : s ≠ []) (ls : List Str) :
    sectionAfter [] ls = s ↔ Under s ls := by
  constructor
  · intro h
    induction ls using List.reverseRecOn with
    | nil => exact absurd h.symm hs
    | append_singleton ls l ih =>
        by_cases hl : ∃ n, IsHeader l n
        · obtain ⟨n, hn⟩ := hl
          let b : Block := ⟨l, trim n, [], ⟨n, hn, rfl⟩, fun _ hm => absurd hm List.not_mem_nil⟩
          exact ⟨ls, b, rfl, (sectionAfter_block [] ls b).symm.trans h⟩
        · have hno : ∀ n, ¬ IsHeader l n := fun n hn => hl ⟨n, hn⟩
          have hsame : sectionAfter (sectionAfter [] ls) [l] = sectionAfter [] ls :=
            sectionAfter_of_noHeader fun m hm => List.mem_singleton.mp hm ▸ hno
          rw [sectionAfter_append, hsame] at h
          obtain ⟨pre, b, rfl, hb⟩ := ih h
          have hbody : ∀ m ∈ b.body ++ [l], ∀ n, ¬ IsHeader m n := by
            intro m hm
            rcases List.mem_append.mp hm with hm | hm
            · exact b.noHeader m hm
            · exact List.mem_singleton.mp hm ▸ hno
          refine ⟨pre, ⟨b.header, b.name, b.body ++ [l], b.isHeader, hbody⟩, ?_, hb⟩
          simp [Block.lines]
  · rintro ⟨pre, b, rfl, rfl⟩
    exact sectionAfter_block [] pre b

/-- Where an assignment comes from. -/
theorem mem_assignments {cur : Str} {ls : List Str} {a : Str × Str × Str}
    (ha : a ∈ assignments cur ls) : ∃ pre l post, ls = pre ++ l :: post ∧
      classify l = .assignment a.2.1 a.2.2 ∧ sectionAfter cur pre = a.1 := by
  induction ls generalizing cur with
  | nil => exact absurd ha List.not_mem_nil
  | cons l ls ih =>
      have hdeeper : ∀ cur', sectionAfter cur [l] = cur' → a ∈ assignments cur' ls →
          ∃ pre m post, l :: ls = pre ++ m :: post ∧
            classify m = .assignment a.2.1 a.2.2 ∧ sectionAfter cur pre = a.1 := by
        rintro cur' rfl hmem
        obtain ⟨pre, m, post, rfl, hm, hsec⟩ := ih hmem
        refine ⟨l :: pre, m, post, rfl, hm, ?_⟩
        rw [← hsec, ← sectionAfter_append]
        rfl
      rw [assignments] at ha
      cases hl : classify l with
      | skipped =>
          rw [hl] at ha
          exact hdeeper cur (by rw [sectionAfter, hl]; rfl) ha
      | header name =>
          rw [hl] at ha
          exact hdeeper name (by rw [sectionAfter, hl]; rfl) ha
      | assignment key value =>
          rw [hl] at ha
          have hstay : sectionAfter cur [l] = cur := by rw [sectionAfter, hl]; rfl
          by_cases hcur : cur = []
          · exact hdeeper cur hstay (by simpa only [if_pos hcur] using ha)
          · rcases List.mem_cons.mp (by simpa only [if_neg hcur] using ha) with rfl | ha
            · exact ⟨[], l, ls, rfl, hl, rfl⟩
            · exact hdeeper cur hstay ha

theorem classify_eq_assignment_iff : classify l = .assignment k v ↔ Assigns l k v := by
  constructor
  · intro h
    have hheader : ∀ name, ¬ IsHeader l name := fun name hn => by
      rw [classify_header hn] at h
      exact LineKind.noConfusion h
    have hcomment : ¬ IsComment l := fun hc => by
      rw [classify_comment hc] at h
      exact LineKind.noConfusion h
    have hblank : trim l ≠ [] := fun hnil => by
      rw [classify_blank (strip_eq_nil_iff.mp hnil)] at h
      exact LineKind.noConfusion h
    rw [classify_cut hblank (head_of_not_isComment hcomment) hheader] at h
    cases hcut : splitFirst '=' l with
    | none =>
        rw [hcut] at h
        exact LineKind.noConfusion h
    | some kv =>
        rw [hcut] at h
        obtain ⟨hk, hl⟩ := splitFirst_eq_some_iff.mp hcut
        obtain ⟨hkey, hval⟩ := LineKind.assignment.inj h
        exact ⟨hcomment, hheader, kv.1, kv.2, hk, hl, hkey, hval⟩
  · rintro ⟨hcomment, hheader, k', v', hk, rfl, rfl, rfl⟩
    have hne : trim (k' ++ '=' :: v') ≠ [] := fun hnil => by
      have hpad := strip_eq_nil_iff.mp hnil '=' (by simp)
      exact Bool.noConfusion hpad
    rw [classify_cut hne (head_of_not_isComment hcomment) hheader,
      splitFirst_eq_some_iff.mpr ⟨hk, rfl⟩]
    rfl

/-- **The last assignment to a key of a section counts.** -/
theorem valueAt_parseText {t : Str} {pre post : List Str} (ht : getLines t = pre ++ l :: post)
    (hs : s ≠ []) (hpre : Under s pre) (hl : Assigns l k v)
    (hlast : ∀ a l' b v', post = a ++ l' :: b → Assigns l' k v' → ¬ Under s (pre ++ l :: a)) :
    valueAt (parseText t) s k = some v := by
  have hcur : sectionAfter [] pre = s := (sectionAfter_eq_iff hs pre).mpr hpre
  have hhere : assignments s (l :: post) = (s, k, v) :: assignments s post := by
    rw [assignments, classify_eq_assignment_iff.mpr hl]
    exact if_neg hs
  have hsame : ∀ a, sectionAfter [] (pre ++ l :: a) = sectionAfter s a := fun a => by
    rw [sectionAfter_append, hcur, sectionAfter, classify_eq_assignment_iff.mpr hl]
  -- no later assignment is one to this key of this section
  have hnone : ∀ a ∈ assignments s post, ¬ (a.1 = s ∧ a.2.1 = k) := by
    intro a ha hak
    obtain ⟨as, l', b, rfl, hl', hsec⟩ := mem_assignments ha
    rw [hak.2] at hl'
    refine hlast as l' b a.2.2 rfl (classify_eq_assignment_iff.mp hl') ?_
    rw [← sectionAfter_eq_iff hs, hsame, hsec, hak.1]
  rw [parseText_eq, ht, assignments_append, applyAll_append, hcur, hhere, applyAll,
    List.foldl_cons, ← applyAll, valueAt_applyAll_of_not_mem hnone, valueAt_assign]

/-- **The layout of a file does not change its meaning.** Files whose lines differ by edits give the
same map, and in a section the last assignment to a key wins. -/
theorem parseINI_layout (files files' : Files) (filepath t : Str) (ht : files filepath = some t) :
    (∀ t', files' filepath = some t' → Relation.EqvGen Edit (getLines t) (getLines t') →
      parseINI files' filepath = parseINI files filepath) ∧
    (∀ pre l post s k v, getLines t = pre ++ l :: post → s ≠ [] → Under s pre → Assigns l k v →
      (∀ a l' b v', post = a ++ l' :: b → Assigns l' k v' → ¬ Under s (pre ++ l :: a)) →
      ∃ result, parseINI files filepath = .ok result ∧ valueAt result s k = some v) := by
  constructor
  · intro t' ht' hedits
    rw [parseINI_of_read ht, parseINI_of_read ht', parseText_edits hedits]
  · intro pre l post s k v hlines hs hpre hl hlast
    exact ⟨parseText t, parseINI_of_read ht, valueAt_parseText hlines hs hpre hl hlast⟩

/-- A comment in front of a section with two assignments to one key. -/
theorem parseINI_layout_comment :
    parseINI (fun _ => some "# c\n[a]\nk=1\nk = 2 \n".toList) "f".toList
        = parseINI (fun _ => some "[a]\nk=1\nk = 2 \n".toList) "f".toList ∧
      ∃ result, parseINI (fun _ => some "[a]\nk=1\nk = 2 \n".toList) "f".toList = .ok result ∧
        valueAt result "a".toList "k".toList = some "2".toList := by
  have hkey : ∀ name, ¬ IsHeader "k=1".toList name := fun name h => by
    have hhead := (isHeader_iff.mp ⟨name, h⟩).1
    exact absurd hhead (by decide)
  have hkey' : ∀ name, ¬ IsHeader "k = 2 ".toList name := fun name h => by
    have hhead := (isHeader_iff.mp ⟨name, h⟩).1
    exact absurd hhead (by decide)
  have hcomment : ¬ IsComment "k = 2 ".toList := fun h => by
    rcases isComment_iff.mp h with h | h
    · exact absurd h (by decide)
    · exact absurd h (by decide)
  have hedit : Edit ["[a]".toList, "k=1".toList, "k = 2 ".toList]
      ["# c".toList, "[a]".toList, "k=1".toList, "k = 2 ".toList] :=
    Edit.insert [] _ (Or.inr (Or.inl ⟨[], '#', " c".toList, Padding.nil, rfl, Or.inl rfl⟩))
  have hlaws := parseINI_layout (fun _ => some "[a]\nk=1\nk = 2 \n".toList)
    (fun _ => some "# c\n[a]\nk=1\nk = 2 \n".toList) "f".toList _ rfl
  constructor
  · exact hlaws.1 _ rfl (Relation.EqvGen.rel _ _ hedit)
  · refine hlaws.2 ["[a]".toList, "k=1".toList] "k = 2 ".toList [] "a".toList "k".toList "2".toList
      rfl (by decide) ?_ ⟨hcomment, hkey', "k ".toList, " 2 ".toList, by decide, rfl, rfl, rfl⟩ ?_
    · refine ⟨[], ⟨"[a]".toList, "a".toList, ["k=1".toList], ⟨"a".toList, rfl, rfl⟩, ?_⟩, rfl, rfl⟩
      intro l hl
      exact List.mem_singleton.mp hl ▸ hkey
    · intro a l' b _ hab
      exact absurd hab (by simp)

end ConfigLoader

end AeronReplay
