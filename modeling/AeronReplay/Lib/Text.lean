import Mathlib.Data.List.DropRight

set_option autoImplicit false

/-! # Text as a list of characters

Three ways of taking a text apart, over any alphabet: `strip` drops the padding at both ends,
`splitFirst` cuts at the first separator and `lines` cuts at every line end. The main results say
when such a cut does not notice a change: `strip_pad` (more padding), `strip_splitFirst` (stripping
the whole text before the cut or its two parts after it is the same) and `lines_unlines` (lines
written out are read back). -/

namespace Text

variable {α : Type*}

/-! ## Stripping both ends -/

section Strip

variable (p : α → Bool)

/-- The text without the padding at its two ends. -/
def strip (l : List α) : List α := (l.dropWhile p).rdropWhile p

/-- A text of padding only. -/
def Padding (a : List α) : Prop := ∀ c ∈ a, p c = true

instance (a : List α) : Decidable (Padding p a) :=
  inferInstanceAs (Decidable (∀ c ∈ a, p c = true))

variable {p} {a b l : List α}

theorem Padding.nil : Padding p [] := fun _ hc => absurd hc List.not_mem_nil

theorem Padding.append (ha : Padding p a) (hb : Padding p b) : Padding p (a ++ b) := by
  intro c hc
  rcases List.mem_append.mp hc with h | h
  · exact ha c h
  · exact hb c h

theorem dropWhile_padding (ha : Padding p a) (l : List α) :
    (a ++ l).dropWhile p = l.dropWhile p := by
  induction a with
  | nil => rfl
  | cons c a ih =>
      rw [List.cons_append, List.dropWhile_cons_of_pos (ha c List.mem_cons_self)]
      exact ih fun d hd => ha d (List.mem_cons_of_mem c hd)

theorem rdropWhile_padding (hb : Padding p b) (l : List α) :
    (l ++ b).rdropWhile p = l.rdropWhile p := by
  have hrev : Padding p b.reverse := fun c hc => hb c (List.mem_reverse.mp hc)
  rw [List.rdropWhile, List.rdropWhile, List.reverse_append, dropWhile_padding hrev]

/-- What is dropped in front is padding. -/
theorem exists_padding_dropWhile (p : α → Bool) (l : List α) :
    ∃ a, Padding p a ∧ l = a ++ l.dropWhile p :=
  ⟨l.takeWhile p, fun _ hc => List.mem_takeWhile_imp hc, List.takeWhile_append_dropWhile.symm⟩

/-- What is dropped at the end is padding. -/
theorem exists_padding_rdropWhile (p : α → Bool) (l : List α) :
    ∃ b, Padding p b ∧ l = l.rdropWhile p ++ b :=
  ⟨l.rtakeWhile p, fun _ hc => List.mem_rtakeWhile_imp hc,
    List.rdropWhile_append_rtakeWhile.symm⟩

/-- A text is its stripped part between two paddings. -/
theorem exists_padding_strip (p : α → Bool) (l : List α) :
    ∃ a b, Padding p a ∧ Padding p b ∧ l = a ++ strip p l ++ b := by
  obtain ⟨a, ha, hla⟩ := exists_padding_dropWhile p l
  obtain ⟨b, hb, hlb⟩ := exists_padding_rdropWhile p (l.dropWhile p)
  refine ⟨a, b, ha, hb, ?_⟩
  rw [List.append_assoc]
  exact hla.trans (congrArg (a ++ ·) hlb)

theorem strip_eq_nil_iff : strip p l = [] ↔ Padding p l := by
  rw [strip, List.rdropWhile_eq_nil_iff]
  constructor
  · intro h
    obtain ⟨a, ha, hl⟩ := exists_padding_dropWhile p l
    rw [hl]
    exact ha.append h
  · intro h c hc
    exact h c ((List.dropWhile_suffix p).subset hc)

/-- A text whose ends are no padding is left as it is. -/
theorem strip_of_ends (hhead : ∀ c ∈ l.head?, p c = false) (hlast : ∀ c ∈ l.getLast?, p c = false) :
    strip p l = l := by
  have hfront : l.dropWhile p = l := by
    cases l with
    | nil => rfl
    | cons c l =>
        exact List.dropWhile_cons_of_neg (by simp [hhead c (by simp)])
  rw [strip, hfront, List.rdropWhile_eq_self_iff]
  intro hne
  simp [hlast (l.getLast hne) (by simp [List.getLast?_eq_getLast_of_ne_nil hne])]

theorem head?_dropWhile (p : α → Bool) (l : List α) :
    (l.dropWhile p).head? = l.find? fun c => !p c := by
  induction l with
  | nil => rfl
  | cons c l ih =>
      by_cases hc : p c = true
      · rw [List.dropWhile_cons_of_pos hc, ih, List.find?_cons_of_neg (by simp [hc])]
      · rw [List.dropWhile_cons_of_neg hc, List.find?_cons_of_pos (by simp [hc]), List.head?_cons]

theorem find?_padding (ha : Padding p a) : a.find? (fun c => !p c) = none := by
  rw [List.find?_eq_none]
  intro c hc
  simp [ha c hc]

/-- The first character that is left is the first one that is no padding. -/
theorem head?_strip (p : α → Bool) (l : List α) :
    (strip p l).head? = l.find? fun c => !p c := by
  obtain ⟨b, -, hlb⟩ := exists_padding_rdropWhile p (l.dropWhile p)
  cases hs : strip p l with
  | nil => rw [find?_padding (strip_eq_nil_iff.mp hs), List.head?_nil]
  | cons c rest =>
      have hcons : l.dropWhile p = strip p l ++ b := hlb
      rw [← head?_dropWhile, hcons, hs, List.cons_append, List.head?_cons, List.head?_cons]

/-- The last character that is left is the last one that is no padding. -/
theorem getLast?_strip (p : α → Bool) (l : List α) :
    (strip p l).getLast? = l.reverse.find? fun c => !p c := by
  obtain ⟨a, ha, hla⟩ := exists_padding_dropWhile p l
  have hrev : Padding p a.reverse := fun c hc => ha c (List.mem_reverse.mp hc)
  have hback : l.reverse = (l.dropWhile p).reverse ++ a.reverse := by
    rw [← List.reverse_append, ← hla]
  rw [hback, List.find?_append, find?_padding hrev, Option.or_none, ← head?_dropWhile, strip,
    List.rdropWhile, List.getLast?_reverse]

/-- **Padding at the ends makes no difference.** -/
theorem strip_pad (ha : Padding p a) (hb : Padding p b) (l : List α) :
    strip p (a ++ l ++ b) = strip p l := by
  rw [strip, List.append_assoc, dropWhile_padding ha]
  by_cases hl : Padding p l
  · have hlb : Padding p (l ++ b) := hl.append hb
    rw [show strip p l = [] from strip_eq_nil_iff.mpr hl]
    exact strip_eq_nil_iff.mpr hlb
  · have hfront : (l ++ b).dropWhile p = l.dropWhile p ++ b := by
      rw [List.dropWhile_append, if_neg]
      intro hnil
      have hemp : l.dropWhile p = [] := List.isEmpty_iff.mp hnil
      exact hl (strip_eq_nil_iff.mp (by rw [strip, hemp]; rfl))
    rw [hfront, rdropWhile_padding hb, strip]

theorem strip_pad_front (ha : Padding p a) (l : List α) : strip p (a ++ l) = strip p l := by
  simpa using strip_pad ha Padding.nil l

theorem strip_pad_back (hb : Padding p b) (l : List α) : strip p (l ++ b) = strip p l := by
  simpa using strip_pad Padding.nil hb l

end Strip

/-! ## Cutting at the first separator -/

section SplitFirst

variable [DecidableEq α] {c : α} {k v l : List α}

/-- The text before and after the first `c`, if there is one. -/
def splitFirst (c : α) : List α → Option (List α × List α)
  | [] => none
  | x :: xs => if x = c then some ([], xs) else (splitFirst c xs).map fun kv => (x :: kv.1, kv.2)

theorem splitFirst_eq_none_iff : splitFirst c l = none ↔ c ∉ l := by
  induction l with
  | nil => simp [splitFirst]
  | cons x xs ih =>
      by_cases hx : x = c
      · simp [splitFirst, hx]
      · simp [splitFirst, hx, ih, Ne.symm hx]

theorem splitFirst_eq_some_iff : splitFirst c l = some (k, v) ↔ c ∉ k ∧ l = k ++ c :: v := by
  induction l generalizing k with
  | nil => simp [splitFirst]
  | cons x xs ih =>
      by_cases hx : x = c
      · subst hx
        rw [splitFirst, if_pos rfl]
        constructor
        · intro h
          obtain ⟨rfl, rfl⟩ := Prod.mk.inj (Option.some.inj h)
          exact ⟨List.not_mem_nil, rfl⟩
        · rintro ⟨hk, hl⟩
          cases k with
          | nil => rw [(List.cons.inj hl).2]
          | cons y k => exact absurd ((List.cons.inj hl).1 ▸ List.mem_cons_self) hk
      · rw [splitFirst, if_neg hx, Option.map_eq_some_iff]
        constructor
        · rintro ⟨⟨k', v'⟩, hs, hkv⟩
          obtain ⟨rfl, rfl⟩ := Prod.mk.inj hkv
          obtain ⟨hk', hl⟩ := ih.mp hs
          exact ⟨by simp [Ne.symm hx, hk'], by rw [hl]; rfl⟩
        · rintro ⟨hk, hl⟩
          cases k with
          | nil => exact absurd (List.cons.inj hl).1 hx
          | cons y k =>
              obtain ⟨rfl, hxs⟩ := List.cons.inj hl
              exact ⟨(k, v), ih.mpr ⟨fun hc => hk (List.mem_cons_of_mem _ hc), hxs⟩, rfl⟩

/-- **Stripping before or after the cut is the same**, as long as the separator is no padding. -/
theorem strip_splitFirst {p : α → Bool} (hc : p c = false) (l : List α) :
    (splitFirst c (strip p l)).map (fun kv => (strip p kv.1, strip p kv.2))
      = (splitFirst c l).map fun kv => (strip p kv.1, strip p kv.2) := by
  obtain ⟨a, b, ha, hb, hl⟩ := exists_padding_strip p l
  have hnot : ∀ {d : List α}, Padding p d → c ∉ d := fun hd hcd => by
    rw [hd c hcd] at hc
    exact Bool.noConfusion hc
  cases hs : splitFirst c (strip p l) with
  | none =>
      have hnone : splitFirst c l = none := by
        rw [splitFirst_eq_none_iff, hl]
        simp [hnot ha, hnot hb, splitFirst_eq_none_iff.mp hs]
      rw [hnone]
  | some kv =>
      obtain ⟨k, v⟩ := kv
      obtain ⟨hk, hkv⟩ := splitFirst_eq_some_iff.mp hs
      have hsome : splitFirst c l = some (a ++ k, v ++ b) := by
        rw [splitFirst_eq_some_iff]
        refine ⟨by simp [hnot ha, hk], ?_⟩
        rw [hl, hkv]
        simp
      rw [hsome, Option.map_some, Option.map_some, strip_pad_front ha, strip_pad_back hb]

end SplitFirst

/-! ## Lines -/

section Lines

variable [DecidableEq α] {nl : α} {l pre post : List α} {ls : List (List α)}

/-- The lines of a text: a last line without a line end counts, an empty one does not. -/
def lines (nl : α) : List α → List (List α)
  | [] => []
  | c :: cs =>
      if c = nl then [] :: lines nl cs
      else match lines nl cs with
        | [] => [[c]]
        | l :: ls => (c :: l) :: ls

/-- The text that has the given lines, each ended. -/
def unlines (nl : α) (ls : List (List α)) : List α := ls.flatMap (· ++ [nl])

theorem lines_cons_line (hl : nl ∉ l) (post : List α) :
    lines nl (l ++ nl :: post) = l :: lines nl post := by
  induction l with
  | nil => simp [lines]
  | cons c l ih =>
      have hc : ¬ c = nl := fun h => hl (h ▸ List.mem_cons_self)
      rw [List.cons_append, lines, if_neg hc, ih fun h => hl (List.mem_cons_of_mem c h)]

/-- **Lines written out are read back.** -/
theorem lines_unlines (h : ∀ l ∈ ls, nl ∉ l) : lines nl (unlines nl ls) = ls := by
  induction ls with
  | nil => rfl
  | cons l ls ih =>
      have hcons : unlines nl (l :: ls) = l ++ nl :: unlines nl ls := by simp [unlines]
      rw [hcons, lines_cons_line (h l List.mem_cons_self),
        ih fun m hm => h m (List.mem_cons_of_mem l hm)]

end Lines

end Text
