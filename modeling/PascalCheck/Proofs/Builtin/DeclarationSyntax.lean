import PascalCheck.Builtin.Declaration
import PascalCheck.Proofs.Text.Runs
import Mathlib.Data.List.Forall2

/-! # The form of a declaration of a built-in routine

`IsWritten` says what text writes a declaration: its parts in their order, with white space between
them and anything behind the semicolon, and without a word on how they are told apart.  `read?`
takes each part as far as it goes and never goes back; still it reads just what is written
(`read?_eq_some_iff`), because no part can go on with what may follow it. -/
namespace PascalCheck
namespace BuiltinDeclaration
open Text

/-! ## The form -/

/-- White space, or nothing. -/
abbrev IsGap (cs : List Char) : Prop :=
  AllOf isBlank cs

/-- The letters of a word, each in either case. -/
def WritesWord (word written : List Char) : Prop :=
  List.Forall₂ (fun w c => isLetterOf w c = true) word written

/-- The word for the kind of a routine.  With a dotless or dotted i it is read, but a function is
declared only by a word with that lower case. -/
inductive WritesKind : Bool → List Char → Prop where
  | function {written : List Char} : WritesWord "function".toList written →
    WritesKind (lower (String.ofList written) = "function") written
  | procedure {written : List Char} : WritesWord "procedure".toList written →
    WritesKind false written

inductive WritesName : String → List Char → Prop where
  | mk {c : Char} {rest : List Char} : beginsName c = true → AllOf isWordChar rest →
    WritesName (String.ofList (c :: rest)) (c :: rest)

structure WritesNumber (number : Nat) (digits : List Char) : Prop where
  nonempty : digits ≠ []
  decimal : AllOf isDecimal digits
  value : decimalNumber digits = number

/-- The greatest number of arguments, behind two points; nothing where it is the least one. -/
inductive WritesMaximum (minimum : Nat) : Nat → List Char → Prop where
  | same : WritesMaximum minimum minimum []
  | points {maximum : Nat} {gap digits : List Char} : IsGap gap → WritesNumber maximum digits →
    WritesMaximum minimum maximum ('.' :: '.' :: gap ++ digits)

/-- The name of the result, behind a colon; nothing where there is none. -/
inductive WritesResult : Option String → List Char → Prop where
  | none : WritesResult none []
  | colon {gap word : List Char} : IsGap gap → word ≠ [] → AllOf isWordChar word →
    WritesResult (some (String.ofList word)) (':' :: gap ++ word)

/-- The text writes the declaration. -/
inductive IsWritten : BuiltinDeclaration → List Char → Prop where
  | mk {isFunction : Bool} {name : String} {minimum maximum : Nat} {result : Option String}
      {kind gap₁ written gap₂ gap₃ digits gap₄ range gap₅ gap₆ type gap₇ : List Char}
      (tail : List Char) : WritesKind isFunction kind → gap₁ ≠ [] → IsGap gap₁ → WritesName name written →
    IsGap gap₂ → IsGap gap₃ → WritesNumber minimum digits → IsGap gap₄ →
    WritesMaximum minimum maximum range → IsGap gap₅ → IsGap gap₆ → WritesResult result type →
    IsGap gap₇ →
    IsWritten ⟨isFunction, name, minimum, maximum, result⟩
      (kind ++ gap₁ ++ written ++ gap₂ ++ '(' :: gap₃ ++ digits ++ gap₄ ++ range ++ gap₅ ++
        ')' :: gap₆ ++ type ++ gap₇ ++ ';' :: tail)

/-! ## Words -/

section
variable {word written cs rest : List Char}

theorem word?_eq_some_iff :
    word? word cs = some rest ↔ ∃ written, WritesWord word written ∧ cs = written ++ rest := by
  induction word generalizing cs with
  | nil => simp [word?, WritesWord]
  | cons w word ih =>
    cases cs with
    | nil => simp [word?, WritesWord, List.forall₂_cons_left_iff]
    | cons c cs =>
      by_cases hc : isLetterOf w c = true
      · simp only [word?, if_pos hc, ih]
        constructor
        · rintro ⟨written, hwritten, rfl⟩
          exact ⟨c :: written, .cons hc hwritten, rfl⟩
        · rintro ⟨written, hwritten, heq⟩
          rcases hwritten with _ | ⟨-, hwritten⟩
          obtain ⟨rfl, rfl⟩ := List.cons.inj heq
          exact ⟨_, hwritten, rfl⟩
      · simp only [word?, if_neg hc]
        constructor
        · intro h
          cases h
        · rintro ⟨written, hwritten, heq⟩
          rcases hwritten with _ | ⟨hfirst, -⟩
          obtain ⟨rfl, -⟩ := List.cons.inj heq
          exact absurd hfirst hc

/-- No text begins with both words. -/
theorem word?_function_of_procedure (h : WritesWord "procedure".toList written) :
    word? "function".toList (written ++ rest) = none := by
  rcases h with _ | @⟨_, c, _, _, hfirst, -⟩
  have hp : isLetterOf 'p' c = true := hfirst
  have hf : ¬ isLetterOf 'f' c = true := by
    simp only [isLetterOf, Bool.or_eq_true, beq_iff_eq, Bool.and_eq_true] at hp ⊢
    grind
  exact if_neg hf

variable {isFunction : Bool}

theorem kind?_eq_some_iff : kind? cs = some (isFunction, rest) ↔
    ∃ written, WritesKind isFunction written ∧ cs = written ++ rest := by
  constructor
  · intro h
    unfold kind? at h
    cases hfunction : word? "function".toList cs with
    | some rest' =>
      obtain ⟨written, hwritten, rfl⟩ := word?_eq_some_iff.mp hfunction
      have hlength : written.length = 8 := hwritten.length_eq.symm
      simp only [hfunction, Option.some.injEq, Prod.mk.injEq] at h
      obtain ⟨hkind, rfl⟩ := h
      rw [List.take_left' hlength] at hkind
      exact ⟨written, hkind ▸ .function hwritten, rfl⟩
    | none =>
      simp only [hfunction, Option.map_eq_some_iff, Prod.mk.injEq] at h
      obtain ⟨_, hprocedure, rfl, rfl⟩ := h
      obtain ⟨written, hwritten, rfl⟩ := word?_eq_some_iff.mp hprocedure
      exact ⟨written, .procedure hwritten, rfl⟩
  · rintro ⟨written, hwritten | hprocedure, rfl⟩
    · have hlength : written.length = 8 := hwritten.length_eq.symm
      simp only [kind?, word?_eq_some_iff.mpr ⟨written, hwritten, rfl⟩]
      rw [List.take_left' hlength]
    · simp only [kind?, word?_function_of_procedure hprocedure,
        word?_eq_some_iff.mpr ⟨written, hprocedure, rfl⟩, Option.map_some]

end

/-! ## Names and numbers -/

section
variable {c : Char} {cs rest gap written digits : List Char}

theorem isBlank_of_beginsName (h : beginsName c = true) : isBlank c = false := by
  have hwide : ∀ code ∈ [0x130, 0x131, 0x17f, 0x212a], isBlank (Char.ofNat code) = false := by
    decide
  by_cases hc : c.toNat < 0x80
  · exact of_ascii (q := fun c => beginsName c = true → isBlank c = false) (by decide) hc h
  · have hne : c ≠ '_' := by
      rintro rfl
      exact hc (by decide)
    have hmem : c.toNat ∈ [0x130, 0x131, 0x17f, 0x212a] := by simpa [beginsName, hc, hne] using h
    have hcode := hwide c.toNat hmem
    rwa [Char.ofNat_toNat] at hcode

theorem skipBlank_gap (hgap : IsGap gap) (hrest : Stops isBlank rest) :
    skipBlank (gap ++ rest) = rest :=
  dropWhile_run hgap hrest

theorem exists_gap (cs : List Char) : ∃ gap, IsGap gap ∧ cs = gap ++ skipBlank cs :=
  ⟨cs.takeWhile isBlank, allOf_takeWhile isBlank cs, List.takeWhile_append_dropWhile.symm⟩

variable {name : String} {number : Nat}

theorem name?_eq_some (h : name? cs = some (name, rest)) : ∃ gap written,
    gap ≠ [] ∧ IsGap gap ∧ WritesName name written ∧ cs = gap ++ written ++ rest := by
  unfold name? at h
  split at h
  · cases h
  · rename_i c more
    split at h
    · rename_i hc
      obtain ⟨gap, hgap, hmore⟩ := exists_gap more
      split at h
      · cases h
      · rename_i d word hskip
        split at h
        · rename_i hd
          cases h
          refine ⟨c :: gap, d :: word.takeWhile isWordChar, by simp, ?_,
            .mk hd (allOf_takeWhile _ _), ?_⟩
          · exact List.forall_mem_cons.mpr ⟨hc, hgap⟩
          · simp [hskip ▸ hmore]
        · cases h
    · cases h

theorem name?_gap (hne : gap ≠ []) (hgap : IsGap gap) (hname : WritesName name written)
    (hrest : Stops isWordChar rest) : name? (gap ++ written ++ rest) = some (name, rest) := by
  rcases hname with @⟨d, word, hd, hword⟩
  cases gap with
  | nil => exact absurd rfl hne
  | cons c gap =>
    obtain ⟨hc, hgap⟩ := List.forall_mem_cons.mp hgap
    have hskip : skipBlank (gap ++ d :: word ++ rest) = d :: (word ++ rest) := by
      rw [List.append_assoc]
      exact skipBlank_gap hgap (stops_cons.mpr (isBlank_of_beginsName hd))
    simp only [name?, List.cons_append, hc, if_true, hskip, hd, takeWhile_run hword hrest,
      dropWhile_run hword hrest]

theorem WritesName.stops_blank (h : WritesName name written) : Stops isBlank (written ++ rest) := by
  rcases h with ⟨hc, -⟩
  exact stops_cons.mpr (isBlank_of_beginsName hc)

theorem number?_eq_some (h : number? cs = some (number, rest)) :
    ∃ digits, WritesNumber number digits ∧ cs = digits ++ rest := by
  unfold number? at h
  split at h
  · cases h
  · rename_i hne
    cases h
    exact ⟨_, ⟨hne, allOf_takeWhile isDecimal cs, rfl⟩, List.takeWhile_append_dropWhile.symm⟩

theorem number?_digits (hdigits : WritesNumber number digits) (hrest : Stops isDecimal rest) :
    number? (digits ++ rest) = some (number, rest) := by
  have hne := hdigits.nonempty
  simp only [number?, takeWhile_run hdigits.decimal hrest, dropWhile_run hdigits.decimal hrest,
    hdigits.value]

/-! ## Marks, ranges and results -/

theorem mark?_eq_some (h : mark? c cs = some rest) :
    ∃ gap gap', IsGap gap ∧ IsGap gap' ∧ cs = gap ++ c :: gap' ++ rest := by
  obtain ⟨gap, hgap, hcs⟩ := exists_gap cs
  unfold mark? at h
  split at h
  · rename_i d more hskip
    split at h
    · rename_i hd
      cases h
      obtain ⟨gap', hgap', hmore⟩ := exists_gap more
      refine ⟨gap, gap', hgap, hgap', ?_⟩
      rw [List.append_assoc, List.cons_append, ← hmore, ← hd, ← hskip, ← hcs]
    · cases h
  · cases h

theorem mark?_of_skipBlank (h : skipBlank cs = c :: rest) : mark? c cs = some (skipBlank rest) := by
  simp [mark?, h]

variable {minimum maximum : Nat} {range gap' : List Char}

theorem maximum?_eq_some (h : maximum? minimum cs = some (maximum, rest)) : ∃ gap range,
    IsGap gap ∧ WritesMaximum minimum maximum range ∧ cs = gap ++ range ++ rest := by
  obtain ⟨gap, hgap, hcs⟩ := exists_gap cs
  unfold maximum? at h
  split at h
  · rename_i more hskip
    obtain ⟨gap', hgap', hmore⟩ := exists_gap more
    obtain ⟨digits, hdigits, hskip'⟩ := number?_eq_some h
    refine ⟨gap, _, hgap, .points hgap' hdigits, ?_⟩
    rw [hcs, hskip, hmore, hskip']
    simp
  · cases h
    exact ⟨gap, [], hgap, .same, by simpa using hcs⟩

/-- What stands behind digits or a word stops them: white space, or a mark. -/
theorem stops_decimal (hgap : IsGap gap) (hc : isDecimal c = false) :
    Stops isDecimal (gap ++ c :: rest) :=
  .append (.of_all (fun _ => isDecimal_of_isBlank) hgap) (stops_cons.mpr hc)

theorem stops_wordChar (hgap : IsGap gap) (hc : isWordChar c = false) :
    Stops isWordChar (gap ++ c :: rest) :=
  .append (.of_all (fun _ => isWordChar_of_isBlank) hgap) (stops_cons.mpr hc)

theorem WritesNumber.stops_blank (h : WritesNumber number digits) :
    Stops isBlank (digits ++ rest) := by
  rcases List.exists_cons_of_ne_nil h.nonempty with ⟨d, more, rfl⟩
  exact stops_cons.mpr (isBlank_of_isDecimal (h.decimal d List.mem_cons_self))

theorem WritesMaximum.stops_decimal (h : WritesMaximum minimum maximum range) (hgap : IsGap gap)
    (hgap' : IsGap gap') : Stops isDecimal (gap ++ range ++ gap' ++ ')' :: rest) := by
  cases h with
  | same =>
    rw [List.append_nil]
    exact stops_decimal (List.forall_mem_append.mpr ⟨hgap, hgap'⟩) (by decide)
  | points =>
    simp only [List.append_assoc]
    exact stops_decimal hgap (by decide)

/-- The range is read up to the parenthesis, or up to the white space in front of it. -/
theorem maximum?_range (rest : List Char) (hgap : IsGap gap)
    (hrange : WritesMaximum minimum maximum range) (hgap' : IsGap gap') : ∃ more,
      maximum? minimum (gap ++ range ++ gap' ++ ')' :: rest) = some (maximum, more) ∧
      mark? ')' more = some (skipBlank rest) := by
  have hparen : Stops isBlank (')' :: rest) := stops_cons.mpr (by decide)
  cases hrange with
  | same =>
    have hskip : skipBlank (gap ++ [] ++ gap' ++ ')' :: rest) = ')' :: rest := by
      rw [List.append_nil]
      exact skipBlank_gap (List.forall_mem_append.mpr ⟨hgap, hgap'⟩) hparen
    refine ⟨')' :: rest, ?_, mark?_of_skipBlank (dropWhile_eq_self hparen)⟩
    unfold maximum?
    rw [hskip]
    rfl
  | @points _ gap₁ digits hgap₁ hdigits =>
    refine ⟨gap' ++ ')' :: rest, ?_, mark?_of_skipBlank (skipBlank_gap hgap' hparen)⟩
    have hskip : skipBlank (gap ++ ('.' :: '.' :: gap₁ ++ digits) ++ gap' ++ ')' :: rest) =
        '.' :: '.' :: (gap₁ ++ (digits ++ (gap' ++ ')' :: rest))) := by
      simp only [List.append_assoc]
      exact skipBlank_gap hgap (stops_cons.mpr (by decide))
    simp only [maximum?, hskip, skipBlank_gap hgap₁ hdigits.stops_blank]
    exact number?_digits hdigits (stops_decimal hgap' (by decide))

variable {result : Option String} {type : List Char}

theorem result?_eq_some (h : result? cs = some (result, rest)) : ∃ gap type,
    IsGap gap ∧ WritesResult result type ∧ cs = gap ++ type ++ rest := by
  obtain ⟨gap, hgap, hcs⟩ := exists_gap cs
  unfold result? at h
  split at h
  · rename_i more hskip
    obtain ⟨gap', hgap', hmore⟩ := exists_gap more
    dsimp only at h
    split at h
    · cases h
    · rename_i hne
      cases h
      refine ⟨gap, _, hgap, .colon hgap' hne (allOf_takeWhile _ _), ?_⟩
      rw [hcs, hskip]
      simp [← hmore]
  · cases h
    exact ⟨gap, [], hgap, .none, by simpa using hcs⟩

/-- The result is read up to the semicolon, or up to the white space in front of it. -/
theorem result?_type (rest : List Char) (hgap : IsGap gap) (htype : WritesResult result type)
    (hgap' : IsGap gap') : ∃ more,
      result? (gap ++ type ++ gap' ++ ';' :: rest) = some (result, more) ∧
      mark? ';' more = some (skipBlank rest) := by
  have hend : Stops isBlank (';' :: rest) := stops_cons.mpr (by decide)
  cases htype with
  | none =>
    have hskip : skipBlank (gap ++ [] ++ gap' ++ ';' :: rest) = ';' :: rest := by
      rw [List.append_nil]
      exact skipBlank_gap (List.forall_mem_append.mpr ⟨hgap, hgap'⟩) hend
    refine ⟨';' :: rest, ?_, mark?_of_skipBlank (dropWhile_eq_self hend)⟩
    unfold result?
    rw [hskip]
    rfl
  | @colon gap₁ word hgap₁ hne hword =>
    refine ⟨gap' ++ ';' :: rest, ?_, mark?_of_skipBlank (skipBlank_gap hgap' hend)⟩
    have hskip : skipBlank (gap ++ (':' :: gap₁ ++ word) ++ gap' ++ ';' :: rest) =
        ':' :: (gap₁ ++ (word ++ (gap' ++ ';' :: rest))) := by
      simp only [List.append_assoc]
      exact skipBlank_gap hgap (stops_cons.mpr (by decide))
    have hfirst : Stops isBlank (word ++ (gap' ++ ';' :: rest)) := by
      rcases List.exists_cons_of_ne_nil hne with ⟨d, more, rfl⟩
      exact stops_cons.mpr (isBlank_of_isWordChar (hword d List.mem_cons_self))
    have hstop : Stops isWordChar (gap' ++ ';' :: rest) := stops_wordChar hgap' (by decide)
    simp only [result?, hskip, skipBlank_gap hgap₁ hfirst, takeWhile_run hword hstop,
      dropWhile_run hword hstop]

end

/-! ## Whole declarations -/

variable {d : BuiltinDeclaration} {line : List Char}

theorem isWritten_of_read? (h : read? line = some d) : d.IsWritten line := by
  simp only [read?, Option.bind_eq_bind, Option.bind_eq_some_iff, Prod.exists] at h
  obtain ⟨isFunction, _, hk, name, _, hn, _, ho, minimum, _, hmin, maximum, _, hmax, _, hc, result,
    _, hr, rest, hs, hd⟩ := h
  obtain ⟨kind, hkind, rfl⟩ := kind?_eq_some_iff.mp hk
  obtain ⟨gap₁, written, hne, hgap₁, hname, rfl⟩ := name?_eq_some hn
  obtain ⟨gap₂, gap₃, hgap₂, hgap₃, rfl⟩ := mark?_eq_some ho
  obtain ⟨digits, hdigits, rfl⟩ := number?_eq_some hmin
  obtain ⟨gap₄, range, hgap₄, hrange, rfl⟩ := maximum?_eq_some hmax
  obtain ⟨gap₅, gap₆, hgap₅, hgap₆, rfl⟩ := mark?_eq_some hc
  obtain ⟨gap₆', type, hgap₆', htype, rfl⟩ := result?_eq_some hr
  obtain ⟨gap₇, gap₈, hgap₇, -, rfl⟩ := mark?_eq_some hs
  cases hd
  have hgap : IsGap (gap₆ ++ gap₆') := List.forall_mem_append.mpr ⟨hgap₆, hgap₆'⟩
  have hwritten := IsWritten.mk (gap₈ ++ rest) hkind hne hgap₁ hname hgap₂ hgap₃ hdigits hgap₄
    hrange hgap₅ hgap htype hgap₇
  simpa only [List.append_assoc, List.cons_append] using hwritten

theorem result?_skipBlank (cs : List Char) : result? (skipBlank cs) = result? cs := by
  have hskip : skipBlank (skipBlank cs) = skipBlank cs :=
    dropWhile_eq_self (stops_dropWhile isBlank cs)
  simp only [result?, hskip]

theorem IsWritten.read? (h : d.IsWritten line) : read? line = some d := by
  rcases h with @⟨isFunction, name, minimum, maximum, result, kind, gap₁, written, gap₂, gap₃,
    digits, gap₄, range, gap₅, gap₆, type, gap₇, tail, hkind, hne, hgap₁, hname, hgap₂, hgap₃,
    hdigits, hgap₄, hrange, hgap₅, hgap₆, htype, hgap₇⟩
  -- What is left behind each part, the last one first.
  obtain ⟨afterResult, hresult, hsemicolon⟩ := result?_type tail hgap₆ htype hgap₇
  obtain ⟨afterMaximum, hmaximum, hclosed⟩ :=
    maximum?_range (gap₆ ++ type ++ gap₇ ++ ';' :: tail) hgap₄ hrange hgap₅
  rw [← result?_skipBlank] at hresult
  let behindClosed := gap₆ ++ type ++ gap₇ ++ ';' :: tail
  let behindOpened := digits ++ (gap₄ ++ range ++ gap₅ ++ ')' :: behindClosed)
  let behindKind := gap₁ ++ written ++ (gap₂ ++ '(' :: (gap₃ ++ behindOpened))
  have hk : kind? (kind ++ behindKind) = some (isFunction, behindKind) :=
    kind?_eq_some_iff.mpr ⟨kind, hkind, rfl⟩
  have hn : name? behindKind = some (name, gap₂ ++ '(' :: (gap₃ ++ behindOpened)) :=
    name?_gap hne hgap₁ hname (stops_wordChar hgap₂ (by decide))
  have ho : mark? '(' (gap₂ ++ '(' :: (gap₃ ++ behindOpened)) = some behindOpened := by
    rw [mark?_of_skipBlank (skipBlank_gap hgap₂ (stops_cons.mpr (by decide))),
      skipBlank_gap hgap₃ hdigits.stops_blank]
  have hmin : number? behindOpened =
      some (minimum, gap₄ ++ range ++ gap₅ ++ ')' :: behindClosed) :=
    number?_digits hdigits (hrange.stops_decimal hgap₄ hgap₅)
  have hline : kind ++ gap₁ ++ written ++ gap₂ ++ '(' :: gap₃ ++ digits ++ gap₄ ++ range ++ gap₅ ++
      ')' :: gap₆ ++ type ++ gap₇ ++ ';' :: tail = kind ++ behindKind := by
    simp [behindKind, behindOpened, behindClosed]
  rw [hline]
  simp only [BuiltinDeclaration.read?, Option.bind_eq_bind, Option.bind_some, hk, hn, ho, hmin,
    hmaximum, hclosed, hresult, hsemicolon, behindClosed]

/-- **What is read is what is written**: the reader takes every part as far as it goes and never
goes back, and still it reads a declaration from just the lines that write it. -/
theorem read?_eq_some_iff : read? line = some d ↔ d.IsWritten line :=
  ⟨isWritten_of_read?, IsWritten.read?⟩

theorem IsWritten.unique {other : BuiltinDeclaration} (h : d.IsWritten line)
    (hother : other.IsWritten line) : d = other :=
  Option.some.inj (h.read?.symm.trans hother.read?)

end BuiltinDeclaration
end PascalCheck
