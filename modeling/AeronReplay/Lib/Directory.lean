import Mathlib.Logic.Function.Basic

set_option autoImplicit false

/-! # Files under names

A directory whose names refer to files, and file handles that stay valid when the names change: a
handle is the file itself (its inode), not its name. Opening a name truncates the file it refers to,
for everybody who has a handle on it; renaming moves a file to another name.

The three operations keep the invariant that no two names refer to one file. Each has one lemma that
says what it does to the names and to the contents (`openTruncate_spec`, `read_write`,
`rename_spec`). -/

/-- Names in use refer to different files among the first `inodes`. -/
structure Directory (Name α : Type) where
  names : Name → Option Nat
  content : Nat → List α
  inodes : Nat
  lt_inodes : ∀ {n : Name} {i : Nat}, names n = some i → i < inodes
  injective : ∀ {n m : Name} {i : Nat}, names n = some i → names m = some i → n = m

namespace Directory

variable {Name α : Type}

/-- No files. -/
def empty (Name α : Type) : Directory Name α where
  names _ := none
  content _ := []
  inodes := 0
  lt_inodes h := nomatch h
  injective h := nomatch h

/-- What a reader of the name sees. -/
def read (f : Directory Name α) (n : Name) : Option (List α) := (f.names n).map f.content

/-- Replaces the content of one file. -/
def setContent (f : Directory Name α) (i : Nat) (bytes : List α) : Directory Name α :=
  { f with content := Function.update f.content i bytes }

/-- Writes at the beginning of the file. What the file holds beyond the written bytes stays. -/
def write (f : Directory Name α) (handle : Nat) (bytes : List α) : Directory Name α :=
  f.setContent handle (bytes ++ (f.content handle).drop bytes.length)

variable [DecidableEq Name]

/-- A new file under a name that is not in use. -/
def create (f : Directory Name α) (n : Name) : Directory Name α where
  names := Function.update f.names n (some f.inodes)
  content := Function.update f.content f.inodes []
  inodes := f.inodes + 1
  lt_inodes {m i} h := by
    by_cases hm : m = n
    · rw [hm, Function.update_self] at h
      obtain rfl := Option.some.inj h
      exact Nat.lt_succ_self _
    · rw [Function.update_of_ne hm] at h
      exact Nat.lt_succ_of_lt (f.lt_inodes h)
  injective {m k i} hm hk := by
    -- the new file is past all others
    by_cases hmn : m = n
    · by_cases hkn : k = n
      · rw [hmn, hkn]
      · rw [hmn, Function.update_self] at hm
        rw [Function.update_of_ne hkn] at hk
        obtain rfl := Option.some.inj hm
        exact absurd (f.lt_inodes hk) (Nat.lt_irrefl _)
    · rw [Function.update_of_ne hmn] at hm
      by_cases hkn : k = n
      · rw [hkn, Function.update_self] at hk
        obtain rfl := Option.some.inj hk
        exact absurd (f.lt_inodes hm) (Nat.lt_irrefl _)
      · rw [Function.update_of_ne hkn] at hk
        exact f.injective hm hk

/-- Opens a file for writing, empty. -/
def openTruncate (f : Directory Name α) (n : Name) : Directory Name α × Nat :=
  match f.names n with
  | some i => (f.setContent i [], i)
  | none => (f.create n, f.inodes)

/-- The file under the name `old` gets the name `new`. What was there before is gone. -/
def move (f : Directory Name α) (old new : Name) {i : Nat} (hold : f.names old = some i) :
    Directory Name α where
  names := Function.update (Function.update f.names old none) new (some i)
  content := f.content
  inodes := f.inodes
  lt_inodes {m j} h := by
    by_cases hm : m = new
    · rw [hm, Function.update_self] at h
      exact f.lt_inodes (hold.trans h)
    · rw [Function.update_of_ne hm] at h
      by_cases ho : m = old
      · rw [ho, Function.update_self] at h
        cases h
      · rw [Function.update_of_ne ho] at h
        exact f.lt_inodes h
  injective {m k j} hm hk := by
    have hother : ∀ {a : Name}, a ≠ new →
        Function.update (Function.update f.names old none) new (some i) a = some j →
        f.names a = some j ∧ a ≠ old := by
      intro a ha h
      rw [Function.update_of_ne ha] at h
      by_cases ho : a = old
      · rw [ho, Function.update_self] at h
        cases h
      · rw [Function.update_of_ne ho] at h
        exact ⟨h, ho⟩
    have hnew : ∀ {a : Name}, a = new →
        Function.update (Function.update f.names old none) new (some i) a = some j → i = j := by
      intro a ha h
      rw [ha, Function.update_self] at h
      exact Option.some.inj h
    by_cases hmn : m = new
    · by_cases hkn : k = new
      · rw [hmn, hkn]
      · obtain ⟨hk', hne⟩ := hother hkn hk
        exact absurd (f.injective hk' (hnew hmn hm ▸ hold)) hne
    · obtain ⟨hm', hne⟩ := hother hmn hm
      by_cases hkn : k = new
      · exact absurd (f.injective hm' (hnew hkn hk ▸ hold)) hne
      · exact f.injective hm' (hother hkn hk).1

/-- `none` where there is nothing to rename. -/
def rename (f : Directory Name α) (old new : Name) : Option (Directory Name α) :=
  match h : f.names old with
  | some _ => some (f.move old new h)
  | none => none

variable {f : Directory Name α} {n m old new : Name} {i : Nat} {bytes : List α}

/-! ## What the operations do -/

omit [DecidableEq Name] in
theorem read_eq_of_names (h : f.names n = some i) : f.read n = some (f.content i) := by
  rw [read, h]
  rfl

omit [DecidableEq Name] in
/-- A reader of another file sees no difference. -/
theorem read_setContent_of_ne (h : f.names n ≠ some i) :
    (f.setContent i bytes).read n = f.read n := by
  show (f.names n).map (Function.update f.content i bytes) = (f.names n).map f.content
  cases hn : f.names n with
  | none => rfl
  | some j =>
      have hne : j ≠ i := fun heq => h (by rw [hn, heq])
      rw [Option.map_some, Option.map_some, Function.update_of_ne hne]

/-- **Opening a file**: the handle is on the file under the name, which is empty; the other names
refer to what they referred to. -/
theorem openTruncate_spec (f : Directory Name α) (n : Name) :
    (f.openTruncate n).1.names n = some (f.openTruncate n).2 ∧
      (f.openTruncate n).1.content (f.openTruncate n).2 = [] ∧
      ∀ m, m ≠ n → (f.openTruncate n).1.read m = f.read m := by
  rw [openTruncate]
  cases hn : f.names n with
  | some i =>
      refine ⟨hn, Function.update_self _ _ _, fun m hm => ?_⟩
      exact read_setContent_of_ne fun h => hm (f.injective h hn)
  | none =>
      refine ⟨Function.update_self _ _ _, Function.update_self _ _ _, fun m hm => ?_⟩
      show (Function.update f.names n (some f.inodes) m).map _ = _
      rw [Function.update_of_ne hm, read]
      cases hm' : f.names m with
      | none => rfl
      | some j =>
          have hlt := f.lt_inodes hm'
          rw [Option.map_some, Option.map_some]
          show some (Function.update f.content f.inodes [] j) = _
          rw [Function.update_of_ne (by omega)]

omit [DecidableEq Name] in
/-- Writing to an empty file. -/
theorem read_write (h : f.names n = some i) (hempty : f.content i = []) :
    (f.write i bytes).read n = some bytes := by
  have hread : (f.write i bytes).read n = some ((f.write i bytes).content i) :=
    read_eq_of_names h
  have hcontent : (f.write i bytes).content i = bytes ++ (f.content i).drop bytes.length :=
    Function.update_self _ _ _
  rw [hread, hcontent, hempty, List.drop_nil, List.append_nil]

/-- **Renaming a file** that exists. -/
theorem rename_spec (new : Name) (h : f.names old = some i) (hne : old ≠ new) :
    ∃ g, f.rename old new = some g ∧ g.read new = f.read old ∧ g.names old = none := by
  refine ⟨f.move old new h, ?_, ?_, ?_⟩
  · rw [rename]
    split
    · next j hj =>
        obtain rfl := Option.some.inj (h.symm.trans hj)
        rfl
    · next hnone => cases h.symm.trans hnone
  · show (Function.update (Function.update f.names old none) new (some i) new).map f.content = _
    rw [Function.update_self, read, h]
  · show Function.update (Function.update f.names old none) new (some i) old = none
    rw [Function.update_of_ne hne, Function.update_self]

theorem rename_none (new : Name) (h : f.names old = none) : f.rename old new = none := by
  rw [rename]
  split
  · next hsome => cases h.symm.trans hsome
  · rfl

end Directory
