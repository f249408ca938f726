import Mathlib.Data.List.Nodup
import PascalCheck.Files.Tree

/-! # What lies below a directory

In a tree as a disk can hold it (`FileTree.IsSound`), what is known to be somewhere is reached by
the names on the way to it (`IsSound.locate_below`).  So the sources below a directory (`sources`)
are all that lies there under the name of a source file, each of them once (`exists_sources_eq`). -/
namespace PascalCheck

theorem nodup_eraseDups {α : Type} [BEq α] [LawfulBEq α] (l : List α) : l.eraseDups.Nodup := by
  match l with
  | [] => exact List.nodup_nil
  | a :: rest =>
    rw [List.eraseDups_cons, List.nodup_cons, List.mem_eraseDups]
    exact ⟨by simp, nodup_eraseDups _⟩
termination_by l.length
decreasing_by exact Nat.lt_succ_of_le (List.length_filter_le _ _)

namespace FileTree

/-- The tree is one that a disk can hold: no file or directory has the name by which the enclosing
one is meant, and nothing lies below a file. -/
structure IsSound (tree : FileTree) : Prop where
  named : ∀ place ∈ tree.places, ".." ∉ place
  bare : ∀ place bytes, tree.entry? place = some (.file bytes) →
    ∀ other ∈ tree.places, place <+: other → other = place

section
variable {tree : FileTree} {place : DiskPlace} {names : List String} {path : Path}

theorem isSome_entry?_iff :
    (tree.entry? place).isSome = true ↔ ∃ other ∈ tree.places, place <+: other := by
  unfold entry?
  split
  · rename_i entry hlookup
    obtain ⟨before, after, hentries, -⟩ := List.lookup_eq_some_iff.mp hlookup
    simp only [Option.isSome_some, true_iff]
    exact ⟨place, by simp [places, hentries], List.prefix_refl place⟩
  · split
    · rename_i hany
      simpa using hany
    · rename_i hany
      simpa using hany

/-- Whether a tree is sound is seen from its entries. -/
theorem isSound_of_entries (hnamed : ∀ place ∈ tree.places, ".." ∉ place)
    (hbare : ∀ entry ∈ tree.entries, ∀ other ∈ tree.places,
      entry.1 <+: other → entry.2 = .directory ∨ other = entry.1) : tree.IsSound where
  named := hnamed
  bare := by
    intro place bytes hfile other hother hstart
    unfold entry? at hfile
    split at hfile
    · rename_i entry hlookup
      obtain rfl := Option.some.inj hfile
      obtain ⟨before, after, hentries, -⟩ := List.lookup_eq_some_iff.mp hlookup
      exact (hbare (place, .file bytes) (by simp [hentries]) other hother hstart).resolve_left
        (by simp)
    · split at hfile <;> cases hfile

theorem isSome_entry?_of_append (h : (tree.entry? (place ++ names)).isSome = true) :
    (tree.entry? place).isSome = true := by
  obtain ⟨other, hother, hstart⟩ := isSome_entry?_iff.mp h
  exact isSome_entry?_iff.mpr ⟨other, hother, (List.prefix_append place names).trans hstart⟩

/-- What lies above anything is a directory. -/
theorem IsSound.entry?_eq_directory (hsound : tree.IsSound)
    (h : (tree.entry? (place ++ names)).isSome = true) (hnames : names ≠ []) :
    tree.entry? place = some .directory := by
  obtain ⟨entry, hentry⟩ := Option.isSome_iff_exists.mp (isSome_entry?_of_append h)
  cases entry with
  | directory => exact hentry
  | file bytes =>
    obtain ⟨other, hother, hstart⟩ := isSome_entry?_iff.mp h
    -- A file would be the whole way, so that there were no names behind it.
    obtain rfl := hsound.bare place bytes hentry other hother
      ((List.prefix_append place names).trans hstart)
    have hlength := hstart.length_le
    rw [List.length_append] at hlength
    exact absurd (List.eq_nil_of_length_eq_zero (by omega)) hnames

/-! ## Ways -/

theorem follow_append (first second : List String) : tree.follow place (first ++ second) =
    (tree.follow place first).bind (tree.follow · second) := by
  induction first generalizing place with
  | nil => rfl
  | cons part rest ih =>
    simp only [List.cons_append, follow]
    generalize (if part = ".." then place.dropLast else place ++ [part]) = next
    split
    · exact ih
    · rfl

/-- The names on the way lead to what is there. -/
theorem IsSound.follow_eq (hsound : tree.IsSound)
    (h : (tree.entry? (place ++ names)).isSome = true) :
    tree.follow place names = some (place ++ names) := by
  induction names generalizing place with
  | nil => simp [follow]
  | cons name rest ih =>
    -- There is something below the place, so it is a directory, and a name leads further down.
    have hnext : (tree.entry? ((place ++ [name]) ++ rest)).isSome = true := by simpa using h
    have hname : name ≠ ".." := by
      rintro rfl
      obtain ⟨other, hother, hstart⟩ := isSome_entry?_iff.mp h
      exact hsound.named other hother (hstart.subset (by simp))
    rw [follow, if_neg hname,
      if_pos ⟨hsound.entry?_eq_directory h (by simp), isSome_entry?_of_append hnext⟩, ih hnext]
    simp

theorem IsSound.locate_below (hsound : tree.IsSound) (hplace : tree.locate path = some place)
    (h : (tree.entry? (place ++ names)).isSome = true) :
    tree.locate (path.below names) = some (place ++ names) := by
  unfold locate at hplace ⊢
  rw [show (path.below names).isAbsolute = path.isAbsolute from rfl,
    show (path.below names).parts = path.parts ++ names from rfl, follow_append, hplace]
  exact hsound.follow_eq h

/-! ## Sources -/

theorem mem_stems {names place : DiskPlace} :
    names ∈ stems place ↔ names ≠ [] ∧ names <+: place := by
  induction place generalizing names with
  | nil => simp [stems]
  | cons name rest ih =>
    cases names with
    | nil => simp [stems]
    | cons first more =>
      simp only [stems, List.mem_cons, List.cons.injEq, List.mem_map, ih, List.cons_prefix_cons]
      constructor
      · rintro (⟨rfl, rfl⟩ | ⟨others, ⟨-, hothers⟩, rfl, rfl⟩)
        · simp
        · exact ⟨by simp, rfl, hothers⟩
      · rintro ⟨-, rfl, hmore⟩
        by_cases hnil : more = []
        · exact .inl ⟨rfl, hnil⟩
        · exact .inr ⟨more, ⟨hnil, hmore⟩, rfl, rfl⟩

theorem mem_below {names : DiskPlace} :
    names ∈ tree.below place ↔ names ≠ [] ∧ (tree.entry? (place ++ names)).isSome = true := by
  simp only [below, List.mem_eraseDups, List.mem_flatMap, List.mem_filter, mem_stems,
    List.isPrefixOf_iff_prefix, isSome_entry?_iff]
  constructor
  · rintro ⟨other, ⟨hother, rest, rfl⟩, hnames, hstart⟩
    rw [List.drop_left] at hstart
    exact ⟨hnames, _, hother, (List.prefix_append_right_inj place).mpr hstart⟩
  · rintro ⟨hnames, other, hother, hstart⟩
    obtain ⟨rest, rfl⟩ := (List.prefix_append place names).trans hstart
    refine ⟨_, ⟨hother, List.prefix_append place rest⟩, hnames, ?_⟩
    rw [List.drop_left]
    exact (List.prefix_append_right_inj place).mp hstart

/-- The names lead from the directory at the path to something that has the name of a source file.
-/
structure IsSourceBelow (tree : FileTree) (path : Path) (names : DiskPlace) : Prop where
  ne_nil : names ≠ []
  named : namesSource (names.getLastD "") = true
  present : ∃ place, tree.locate path = some place ∧
    (tree.entry? (place ++ names)).isSome = true

/-- What lies below a directory is found by its path. -/
theorem IsSourceBelow.isSome_look (h : tree.IsSourceBelow path names) (hsound : tree.IsSound) :
    (tree.look (path.below names)).isSome = true := by
  obtain ⟨place, hplace, hpresent⟩ := h.present
  rw [look, hsound.locate_below hplace hpresent]
  exact hpresent

/-- **The sources below a directory** are all there is under the name of a source file, each of them
once. -/
theorem exists_sources_eq (h : tree.isDirectory path = true) :
    ∃ found : List DiskPlace, tree.sources path = found.map path.below ∧ found.Nodup ∧
      ∀ names, names ∈ found ↔ tree.IsSourceBelow path names := by
  cases hplace : tree.locate path with
  | none => simp [isDirectory, look, hplace] at h
  | some place =>
    let found := (tree.below place).filter fun names => namesSource (names.getLastD "")
    have hperm := List.mergeSort_perm found precedes
    refine ⟨found.mergeSort precedes, by rw [sources, hplace], ?_, ?_⟩
    · exact hperm.nodup_iff.mpr (List.Nodup.filter _ (nodup_eraseDups _))
    · intro names
      rw [hperm.mem_iff, List.mem_filter, mem_below]
      constructor
      · rintro ⟨⟨hnil, hpresent⟩, hnamed⟩
        exact ⟨hnil, hnamed, place, hplace, hpresent⟩
      · rintro ⟨hnil, hnamed, other, hother, hpresent⟩
        cases hplace.symm.trans hother
        exact ⟨⟨hnil, hpresent⟩, hnamed⟩

end
end FileTree
end PascalCheck
