import Mathlib.Data.List.TakeWhile

set_option autoImplicit false

/-! # Decimal numerals

`decimal n` is the text of an integer, `Numeral l n` says that the text `l` is as a whole an
optionally signed decimal numeral for `n`, and `leading l` reads the longest numeral a text starts
with. The main results are `leading_eq_some_iff` (what such a reader stops at),
`numeral_iff_leading` (a whole numeral is one the reader leaves nothing of) and `numeral_decimal`
(what is printed is a numeral). -/

namespace Decimal

/-- The number a list of digits stands for. -/
def value (ds : List Char) : Int := (Nat.ofDigitChars 10 ds 0 : Nat)

/-- The text `l` is an optionally signed decimal numeral for `n`, and nothing else. -/
inductive Numeral : List Char → Int → Prop
  | plain (ds : List Char) : ds ≠ [] → (∀ c ∈ ds, c.isDigit) → Numeral ds (value ds)
  | plus (ds : List Char) : ds ≠ [] → (∀ c ∈ ds, c.isDigit) → Numeral ('+' :: ds) (value ds)
  | minus (ds : List Char) : ds ≠ [] → (∀ c ∈ ds, c.isDigit) → Numeral ('-' :: ds) (-value ds)

/-- The longest run of digits a text starts with, and the rest. -/
def digits (l : List Char) : Option (Int × List Char) :=
  let ds := l.takeWhile Char.isDigit
  if ds = [] then none else some (value ds, l.dropWhile Char.isDigit)

/-- The longest numeral a text starts with, and the rest. -/
def leading : List Char → Option (Int × List Char)
  | '+' :: l => digits l
  | '-' :: l => (digits l).map fun nr => (-nr.1, nr.2)
  | l => digits l

/-- The decimal text of an integer. -/
def decimal (n : Int) : List Char :=
  if n < 0 then '-' :: Nat.toDigits 10 n.natAbs else Nat.toDigits 10 n.natAbs

variable {l rest : List Char} {n : Int}

/-! ## Reading -/

/-- The text does not go on with a digit. -/
def Stops (rest : List Char) : Prop := ∀ c ∈ rest.head?, c.isDigit = false

theorem takeWhile_digits {ds : List Char} (hds : ∀ c ∈ ds, c.isDigit) (hrest : Stops rest) :
    (ds ++ rest).takeWhile Char.isDigit = ds ∧ (ds ++ rest).dropWhile Char.isDigit = rest := by
  have hnone : rest.takeWhile Char.isDigit = [] ∧ rest.dropWhile Char.isDigit = rest := by
    cases rest with
    | nil => exact ⟨rfl, rfl⟩
    | cons c rest =>
        have hc : ¬ c.isDigit = true := by simp [hrest c (by simp)]
        exact ⟨List.takeWhile_cons_of_neg hc, List.dropWhile_cons_of_neg hc⟩
  constructor
  · rw [List.takeWhile_append_of_pos hds, hnone.1, List.append_nil]
  · rw [List.dropWhile_append_of_pos hds, hnone.2]

theorem digits_eq_some_iff : digits l = some (n, rest) ↔
    ∃ ds, ds ≠ [] ∧ (∀ c ∈ ds, c.isDigit) ∧ Stops rest ∧ n = value ds ∧ l = ds ++ rest := by
  constructor
  · intro h
    simp only [digits] at h
    split at h
    · exact absurd h (by simp)
    · next hne =>
        obtain ⟨rfl, rfl⟩ := Prod.mk.inj (Option.some.inj h)
        refine ⟨l.takeWhile Char.isDigit, hne, fun c hc => List.mem_takeWhile_imp hc, ?_, rfl,
          List.takeWhile_append_dropWhile.symm⟩
        intro c hc
        have := List.head?_dropWhile_not Char.isDigit l
        rw [Option.mem_def.mp hc] at this
        simpa using this
  · rintro ⟨ds, hne, hds, hstop, rfl, rfl⟩
    obtain ⟨htake, hdrop⟩ := takeWhile_digits hds hstop
    simp only [digits, htake, hdrop, if_neg hne]

/-- A text whose first character is no sign is read from that character on. -/
theorem leading_of_digit {c : Char} (hc : c.isDigit) (l : List Char) :
    leading (c :: l) = digits (c :: l) := by
  rw [leading]
  · rintro _ ⟨rfl, -⟩
    exact absurd hc (by decide)
  · rintro _ ⟨rfl, -⟩
    exact absurd hc (by decide)

/-- **The reader takes the longest numeral in front**, and what is left does not go on with a
digit. -/
theorem leading_eq_some_iff : leading l = some (n, rest) ↔
    ∃ w, Numeral w n ∧ Stops rest ∧ l = w ++ rest := by
  constructor
  · intro h
    rw [leading.eq_def] at h
    split at h
    · obtain ⟨ds, hne, hds, hstop, rfl, rfl⟩ := digits_eq_some_iff.mp h
      exact ⟨_, .plus ds hne hds, hstop, rfl⟩
    · obtain ⟨⟨m, r⟩, hd, hm⟩ := Option.map_eq_some_iff.mp h
      obtain ⟨rfl, rfl⟩ := Prod.mk.inj hm
      obtain ⟨ds, hne, hds, hstop, rfl, rfl⟩ := digits_eq_some_iff.mp hd
      exact ⟨_, .minus ds hne hds, hstop, rfl⟩
    · obtain ⟨ds, hne, hds, hstop, rfl, rfl⟩ := digits_eq_some_iff.mp h
      exact ⟨_, .plain ds hne hds, hstop, rfl⟩
  · rintro ⟨w, hw, hstop, rfl⟩
    cases hw with
    | plain _ hne hds =>
        cases w with
        | nil => exact absurd rfl hne
        | cons c ds =>
            rw [List.cons_append, leading_of_digit (hds c List.mem_cons_self)]
            exact digits_eq_some_iff.mpr ⟨c :: ds, hne, hds, hstop, rfl, rfl⟩
    | plus ds hne hds => exact digits_eq_some_iff.mpr ⟨ds, hne, hds, hstop, rfl, rfl⟩
    | minus ds hne hds =>
        have hd : digits (ds ++ rest) = some (value ds, rest) :=
          digits_eq_some_iff.mpr ⟨ds, hne, hds, hstop, rfl, rfl⟩
        rw [List.cons_append, leading, hd, Option.map_some]

/-- **A whole numeral is one the reader leaves nothing of.** -/
theorem numeral_iff_leading : Numeral l n ↔ leading l = some (n, []) := by
  rw [leading_eq_some_iff]
  constructor
  · intro h
    exact ⟨l, h, fun c hc => absurd hc (by simp), (List.append_nil l).symm⟩
  · rintro ⟨w, hw, -, rfl⟩
    rwa [List.append_nil]

/-! ## Printing -/

/-- **What is printed is a numeral.** -/
theorem numeral_decimal (n : Int) : Numeral (decimal n) n := by
  have hdig : ∀ c ∈ Nat.toDigits 10 n.natAbs, c.isDigit = true := fun c hc =>
    Nat.isDigit_of_mem_toDigits (by omega) (by omega) hc
  have hval : value (Nat.toDigits 10 n.natAbs) = n.natAbs := by
    rw [value, Nat.ofDigitChars_ten_toDigits]
  by_cases hn : n < 0
  · have hnum := Numeral.minus _ Nat.toDigits_ne_nil hdig
    rw [hval, show -(n.natAbs : Int) = n by omega] at hnum
    rwa [decimal, if_pos hn]
  · have hnum := Numeral.plain _ Nat.toDigits_ne_nil hdig
    rw [hval, show (n.natAbs : Int) = n by omega] at hnum
    rwa [decimal, if_neg hn]

/-- A numeral is made of digits and perhaps a sign in front. -/
theorem Numeral.mem {c : Char} (h : Numeral l n) (hc : c ∈ l) :
    c.isDigit = true ∨ c = '+' ∨ c = '-' := by
  cases h with
  | plain _ _ hds => exact Or.inl (hds c hc)
  | plus ds _ hds =>
      rcases List.mem_cons.mp hc with rfl | hc
      · exact Or.inr (Or.inl rfl)
      · exact Or.inl (hds c hc)
  | minus ds _ hds =>
      rcases List.mem_cons.mp hc with rfl | hc
      · exact Or.inr (Or.inr rfl)
      · exact Or.inl (hds c hc)

end Decimal
