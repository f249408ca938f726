import PascalCheck.Proofs.Builtin.Loading
import PascalCheck.Proofs.LetterCase.Text
import PascalCheck.Proofs.Text.FileLines
import PascalCheck.Proofs.Text.Utf8

/-! # Tables that are written and loaded

A table can be written as a file of declarations in many ways: letter case, white space, numerals,
what stands behind a semicolon, empty lines and comments are free.  Whichever way is taken, the load
of the file into an empty loader gives the table back (`loadFile_written`). -/
namespace PascalCheck
open BuiltinDeclaration Text

/-! ## Ways to write a routine -/

/-- The text in letters of any case, where it is in lower case. -/
def SpellsName (name : String) (written : List Char) : Prop :=
  written.map Char.toLower = name.toList

instance (name : String) (written : List Char) : Decidable (SpellsName name written) :=
  inferInstanceAs (Decidable (written.map Char.toLower = name.toList))

/-- A letter from a to z or the underscore. -/
def isNameStart (c : Char) : Bool :=
  c.isLower || c == '_'

/-- A name of letters from a to z, digits and underscores that does not begin with a digit. -/
def IsPlainName (name : String) : Prop :=
  ∃ c rest, name.toList = c :: rest ∧ isNameStart c = true ∧
    AllOf (fun d => isNameStart d || d.isDigit) rest

namespace BuiltinRoutine

/-- The kind, the name and the numbers of arguments, up to the closing parenthesis. -/
inductive WritesHead (kind name : String) (minimum maximum : Nat) : List Char → Prop where
  | mk {keyword gap₁ written gap₂ gap₃ digits gap₄ range gap₅ : List Char} :
    SpellsName kind keyword → gap₁ ≠ [] → IsGap gap₁ → SpellsName name written → IsGap gap₂ →
    IsGap gap₃ → WritesNumber minimum digits → IsGap gap₄ → WritesMaximum minimum maximum range →
    IsGap gap₅ →
    WritesHead kind name minimum maximum
      (keyword ++ gap₁ ++ written ++ gap₂ ++ '(' :: gap₃ ++ digits ++ gap₄ ++ range ++ gap₅ ++
        [')'])

/-- The line declares the routine. -/
inductive Writes : BuiltinRoutine → List Char → Prop where
  | function {name : String} {minimum maximum : Nat} {rule : ResultRule}
      {lead head gap₁ gap₂ type gap₃ : List Char} (tail : List Char) :
    IsPlainName name → rule ∈ ResultRule.all → IsGap lead →
    WritesHead "function" name minimum maximum head → IsGap gap₁ → IsGap gap₂ →
    SpellsName rule.name type → IsGap gap₃ →
    Writes ⟨name, minimum, maximum, some rule⟩
      (lead ++ head ++ gap₁ ++ ':' :: gap₂ ++ type ++ gap₃ ++ ';' :: tail)
  | procedure {name : String} {minimum maximum : Nat} {lead head gap : List Char}
      (tail : List Char) : IsPlainName name → IsGap lead →
    WritesHead "procedure" name minimum maximum head → IsGap gap →
    Writes ⟨name, minimum, maximum, none⟩ (lead ++ head ++ gap ++ ';' :: tail)

end BuiltinRoutine

/-- The line declares nothing: it is white space, or a comment behind white space. -/
inductive IsIdleLine : List Char → Prop where
  | blank {line : List Char} : IsGap line → IsIdleLine line
  | comment {lead tail : List Char} : IsGap lead → IsIdleLine (lead ++ '/' :: '/' :: tail)

/-- The lines declare the routines in their order, with lines between that declare nothing. -/
inductive WritesAll : List BuiltinRoutine → List (List Char) → Prop where
  | nil : WritesAll [] []
  | entry {routine : BuiltinRoutine} {line : List Char} {routines : List BuiltinRoutine}
      {lines : List (List Char)} : IsOneLine line → routine.Writes line → WritesAll routines lines →
    WritesAll (routine :: routines) (line :: lines)
  | idle {line : List Char} {routines : List BuiltinRoutine} {lines : List (List Char)} :
    IsOneLine line → IsIdleLine line → WritesAll routines lines → WritesAll routines (line :: lines)

/-! ## Letters of either case -/

section
variable {name : String} {written : List Char} {c : Char}

theorem toNat_lt_of_le {bound : UInt32} (h : c.val ≤ bound) (hbound : bound.toNat < 0x80) :
    c.toNat < 0x80 :=
  Nat.lt_of_le_of_lt (UInt32.le_iff_toNat_le.mp h) hbound

theorem toNat_lt_of_isPlain (h : (isNameStart c.toLower || c.toLower.isDigit) = true) :
    c.toNat < 0x80 := by
  rcases toLower_eq_or_mem_capitals c with hc | hc
  · rw [hc] at h
    simp only [isNameStart, Bool.or_eq_true, beq_iff_eq] at h
    rcases h with (hlower | rfl) | hdigit
    · exact toNat_lt_of_le (of_decide_eq_true (Bool.and_eq_true_iff.mp hlower).2) (by decide)
    · decide
    · exact toNat_lt_of_le (of_decide_eq_true (Bool.and_eq_true_iff.mp hdigit).2) (by decide)
  · have hcapitals : ∀ d ∈ capitals, d.toNat < 0x80 := by decide
    exact hcapitals c hc

theorem isWordChar_of_isPlain (h : (isNameStart c.toLower || c.toLower.isDigit) = true) :
    isWordChar c = true := by
  exact of_ascii (q := fun c => (isNameStart c.toLower || c.toLower.isDigit) = true →
    isWordChar c = true) (by decide) (toNat_lt_of_isPlain h) h

theorem beginsName_of_isNameStart (h : isNameStart c.toLower = true) : beginsName c = true := by
  have hc : c.toNat < 0x80 := toNat_lt_of_isPlain (by rw [h, Bool.true_or])
  exact of_ascii (q := fun c => isNameStart c.toLower = true → beginsName c = true) (by decide) hc h

theorem SpellsName.map_toLower (h : SpellsName name written) :
    name.toList.map Char.toLower = name.toList := by
  rw [← h, List.map_map]
  exact List.map_congr_left fun c _ => toLower_toLower_char c

theorem SpellsName.lower_eq (h : SpellsName name written) :
    lower (String.ofList written) = lower name := by
  apply lower_eq_of_toLower_eq
  rw [← String.toList_inj, toList_toLower, toList_toLower, String.toList_ofList, h, h.map_toLower]

theorem SpellsName.writesWord (h : SpellsName name written) : WritesWord name.toList written := by
  rw [← h, WritesWord, List.forall₂_map_left_iff, List.forall₂_same]
  intro c _
  simp [isLetterOf]

theorem toLower_of_isPlain (h : (isNameStart c || c.isDigit) = true) :
    c.toNat < 0x80 ∧ c.toLower = c := by
  have hcapitals : ∀ d ∈ capitals, ¬ (isNameStart d || d.isDigit) = true := by decide
  rcases toLower_eq_or_mem_capitals c with heq | hmem
  · exact ⟨toNat_lt_of_isPlain (by rwa [heq]), heq⟩
  · exact absurd h (hcapitals c hmem)

theorem IsPlainName.allOf (hname : IsPlainName name) :
    AllOf (fun c => isNameStart c || c.isDigit) name.toList := by
  obtain ⟨c, rest, heq, hc, hrest⟩ := hname
  rw [heq]
  exact List.forall_mem_cons.mpr ⟨by simp [hc], hrest⟩

theorem IsPlainName.spells (hname : IsPlainName name) : SpellsName name name.toList :=
  (List.map_congr_left fun c hc => (toLower_of_isPlain (hname.allOf c hc)).2).trans (List.map_id' _)

/-- A plain name is its own lower case. -/
theorem IsPlainName.lower_eq (hname : IsPlainName name) : lower name = name := by
  have hascii : ∀ c ∈ name.toList, c.toNat < 0x80 := fun c hc =>
    (toLower_of_isPlain (hname.allOf c hc)).1
  rw [lower, lowerAfter_ascii [] _ hascii, hname.spells, String.ofList_toList]

theorem SpellsName.writesName (h : SpellsName name written) (hname : IsPlainName name) :
    WritesName (String.ofList written) written := by
  obtain ⟨c, rest, heq, hc, hrest⟩ := hname
  rw [← h] at heq
  obtain ⟨d, more, rfl, rfl, rfl⟩ := List.map_eq_cons_iff.mp heq
  refine .mk (beginsName_of_isNameStart hc) fun e he => ?_
  exact isWordChar_of_isPlain (hrest _ (List.mem_map_of_mem he))

/-- The name of a result is read as that result. -/
theorem SpellsName.ofName? {rule : ResultRule} (hrule : rule ∈ ResultRule.all)
    (h : SpellsName rule.name written) :
    ResultRule.ofName? (lower (String.ofList written)) = some rule := by
  have hnames : ∀ rule ∈ ResultRule.all, ResultRule.ofName? (lower rule.name) = some rule := by
    decide
  rw [h.lower_eq, hnames rule hrule]

theorem SpellsName.isWord {rule : ResultRule} (hrule : rule ∈ ResultRule.all)
    (h : SpellsName rule.name written) : written ≠ [] ∧ AllOf isWordChar written := by
  have hnames : ∀ rule ∈ ResultRule.all, rule.name.toList ≠ [] ∧
      ∀ c ∈ rule.name.toList, (isNameStart c || c.isDigit) = true := by
    decide
  obtain ⟨hne, hletters⟩ := hnames rule hrule
  rw [← h] at hne hletters
  refine ⟨fun hnil => hne (by rw [hnil, List.map_nil]), fun c hc => ?_⟩
  exact isWordChar_of_isPlain (hletters _ (List.mem_map_of_mem hc))

end

/-! ## One way to write a routine -/

theorem isPlainName_function : IsPlainName "function" :=
  ⟨'f', "unction".toList, rfl, by decide, by decide⟩

theorem isPlainName_procedure : IsPlainName "procedure" :=
  ⟨'p', "rocedure".toList, rfl, by decide, by decide⟩

theorem isGap_nil : IsGap [] :=
  fun _ hc => absurd hc List.not_mem_nil

theorem isGap_space : IsGap [' '] := by
  decide

theorem decimalValue?_of_isDigit {c : Char} (h : c.isDigit = true) :
    decimalValue? c = some (c.toNat - '0'.toNat) := by
  have hc : c.toNat < 0x80 :=
    toNat_lt_of_le (of_decide_eq_true (Bool.and_eq_true_iff.mp h).2) (by decide)
  rw [decimalValue?, if_pos hc, if_pos h]

/-- The numeral of a number writes it. -/
theorem writesNumber_toDigits (n : Nat) : WritesNumber n (Nat.toDigits 10 n) := by
  have hdigits : ∀ c ∈ Nat.toDigits 10 n, decimalValue? c = some (c.toNat - '0'.toNat) := by
    intro c hc
    exact decimalValue?_of_isDigit (Nat.isDigit_of_mem_toDigits (by decide) (by decide) hc)
  refine ⟨Nat.toDigits_ne_nil, fun c hc => ?_, ?_⟩
  · rw [isDecimal, hdigits c hc, Option.isSome_some]
  · have hvalue :
        decimalNumber (Nat.toDigits 10 n) = Nat.ofDigitChars 10 (Nat.toDigits 10 n) 0 := by
      rw [decimalNumber, Nat.ofDigitChars_eq_foldl]
      refine List.foldl_ext _ _ _ fun number c hc => ?_
      rw [hdigits c hc, Option.getD_some]
    rw [hvalue, Nat.ofDigitChars_toDigits (by decide) (by decide)]

namespace BuiltinRoutine

theorem writesHead_plain {kind name : String} (hkind : IsPlainName kind) (hname : IsPlainName name)
    (minimum maximum : Nat) : WritesHead kind name minimum maximum
      (kind.toList ++ [' '] ++ name.toList ++ '(' :: Nat.toDigits 10 minimum ++
        '.' :: '.' :: Nat.toDigits 10 maximum ++ [')']) := by
  have hrange : WritesMaximum minimum maximum ('.' :: '.' :: [] ++ Nat.toDigits 10 maximum) :=
    .points isGap_nil (writesNumber_toDigits maximum)
  have hhead := WritesHead.mk hkind.spells (List.cons_ne_nil ' ' []) isGap_space hname.spells
    isGap_nil isGap_nil (writesNumber_toDigits minimum) isGap_nil hrange isGap_nil
  simpa only [List.append_nil, List.append_assoc, List.cons_append, List.nil_append] using hhead

/-- The declaration of a function in one way among others. -/
theorem writes_function {name : String} {rule : ResultRule} (hname : IsPlainName name)
    (hrule : rule ∈ ResultRule.all) (minimum maximum : Nat) :
    Writes ⟨name, minimum, maximum, some rule⟩
      s!"function {name}({minimum}..{maximum}): {rule.name};".toList := by
  have htypes : ∀ rule ∈ ResultRule.all, SpellsName rule.name rule.name.toList := by decide
  have hwrites := Writes.function [] hname hrule isGap_nil
    (writesHead_plain isPlainName_function hname minimum maximum) isGap_nil isGap_space
    (htypes rule hrule) isGap_nil
  simpa [toString, Nat.toList_repr] using hwrites

theorem writes_procedure {name : String} (hname : IsPlainName name) (minimum maximum : Nat) :
    Writes ⟨name, minimum, maximum, none⟩
      s!"procedure {name}({minimum}..{maximum});".toList := by
  have hwrites := Writes.procedure [] hname isGap_nil
    (writesHead_plain isPlainName_procedure hname minimum maximum) isGap_nil
  simpa [toString, Nat.toList_repr] using hwrites

theorem isOneLine_of_plain {cs : List Char}
    (h : AllOf (fun c => isNameStart c || c.isDigit) cs) : IsOneLine cs := by
  intro c hc
  have hplain := h c hc
  constructor
  · rintro rfl
    cases hplain
  · rintro rfl
    cases hplain

theorem isOneLine_toDigits (n : Nat) : IsOneLine (Nat.toDigits 10 n) := by
  apply isOneLine_of_plain
  intro c hc
  have hdigit := Nat.isDigit_of_mem_toDigits (by decide) (by decide) hc
  simp [hdigit]

/-- Every routine with a plain name can be written. -/
theorem exists_writes {name : String} {result : Option ResultRule} (minimum maximum : Nat)
    (hname : IsPlainName name) (hresult : ∀ rule ∈ result, rule ∈ ResultRule.all) :
    ∃ line, IsOneLine line ∧ Writes ⟨name, minimum, maximum, result⟩ line := by
  have hnameLine : IsOneLine name.toList := isOneLine_of_plain hname.allOf
  cases result with
  | some rule =>
    have htypes : ∀ rule ∈ ResultRule.all, IsOneLine rule.name.toList := by decide
    refine ⟨_, ?_, writes_function hname (hresult rule rfl) minimum maximum⟩
    simp only [toString, String.toList_append, Nat.toList_repr, isOneLine_append, and_assoc]
    exact ⟨by decide, hnameLine, by decide, isOneLine_toDigits minimum, by decide,
      isOneLine_toDigits maximum, by decide, htypes rule (hresult rule rfl), by decide⟩
  | none =>
    refine ⟨_, ?_, writes_procedure hname minimum maximum⟩
    simp only [toString, String.toList_append, Nat.toList_repr, isOneLine_append, and_assoc]
    exact ⟨by decide, hnameLine, by decide, isOneLine_toDigits minimum, by decide,
      isOneLine_toDigits maximum, by decide⟩

/-- Every table of such routines can be written. -/
theorem exists_writesAll {routines : List BuiltinRoutine}
    (h : ∀ routine ∈ routines, IsPlainName routine.name ∧ 0 ≤ routine.minimum ∧
      0 ≤ routine.maximum ∧ ∀ rule ∈ routine.result, rule ∈ ResultRule.all) :
    ∃ lines, WritesAll routines lines := by
  induction routines with
  | nil => exact ⟨[], .nil⟩
  | cons routine rest ih =>
    obtain ⟨⟨hname, hminimum, hmaximum, hresult⟩, hrest⟩ := List.forall_mem_cons.mp h
    obtain ⟨lines, hlines⟩ := ih hrest
    obtain ⟨minimum, hminimum⟩ := Int.eq_ofNat_of_zero_le hminimum
    obtain ⟨maximum, hmaximum⟩ := Int.eq_ofNat_of_zero_le hmaximum
    obtain ⟨line, hline, hwrites⟩ := exists_writes minimum maximum hname hresult
    rw [← hminimum, ← hmaximum] at hwrites
    exact ⟨line :: lines, .entry hline hwrites hlines⟩

end BuiltinRoutine

/-! ## Lines -/

theorem SpellsName.writesKind_function {keyword : List Char} (h : SpellsName "function" keyword) :
    WritesKind true keyword := by
  have hlower : lower (String.ofList keyword) = "function" :=
    h.lower_eq.trans (isPlainName_function.lower_eq)
  have hkind := WritesKind.function h.writesWord
  rwa [decide_eq_true hlower] at hkind

namespace BuiltinRoutine
variable {kind name : String} {minimum maximum : Nat} {head rest : List Char}

theorem WritesHead.stops_blank (h : WritesHead kind name minimum maximum head)
    (hkind : IsPlainName kind) : Stops isBlank (head ++ rest) := by
  obtain ⟨hkeyword, -⟩ := h
  simp only [List.append_assoc]
  exact (hkeyword.writesName hkind).stops_blank

theorem WritesHead.exists_isWritten {isFunction : Bool} {result : Option String}
    {gap type gap' : List Char} (h : WritesHead kind name minimum maximum head) (tail : List Char)
    (hkind : ∀ keyword, SpellsName kind keyword → WritesKind isFunction keyword)
    (hname : IsPlainName name) (hgap : IsGap gap) (htype : WritesResult result type)
    (hgap' : IsGap gap') : ∃ written, lower written = name ∧
      BuiltinDeclaration.IsWritten ⟨isFunction, written, minimum, maximum, result⟩
        (head ++ gap ++ type ++ gap' ++ ';' :: tail) := by
  obtain ⟨hkeyword, hne, hgap₁, hwritten, hgap₂, hgap₃, hdigits, hgap₄, hrange, hgap₅⟩ := h
  refine ⟨_, hwritten.lower_eq.trans (hname.lower_eq), ?_⟩
  have hline := IsWritten.mk tail (hkind _ hkeyword) hne hgap₁ (hwritten.writesName hname) hgap₂
    hgap₃ hdigits hgap₄ hrange hgap₅ hgap htype hgap'
  simpa only [List.append_assoc, List.cons_append, List.nil_append] using hline

end BuiltinRoutine

namespace Loader
variable {routine : BuiltinRoutine} {line : List Char}

theorem isIdle_trim_of_isIdleLine (h : IsIdleLine line) : isIdle (trim line) = true := by
  cases h with
  | blank hgap =>
    rw [trim_blank hgap]
    rfl
  | @comment lead tail hlead =>
    have hslash : Stops isBlank (['/'] ++ '/' :: tail) := stops_cons.mpr (by decide)
    obtain ⟨rest, htrim⟩ := exists_trim_eq hlead hslash (by decide)
    rw [List.append_assoc] at htrim
    rw [show lead ++ '/' :: '/' :: tail = lead ++ (['/'] ++ '/' :: tail) from rfl, htrim]
    rfl

/-- A line that declares a routine is neither empty nor a comment. -/
theorem Accepts.isIdle_eq_false (h : Accepts line routine) : isIdle line = false := by
  have hread : ∃ d, BuiltinDeclaration.read? line = some d := by
    cases h with
    | function hd => exact ⟨_, hd.read?⟩
    | procedure hd => exact ⟨_, hd.read?⟩
  obtain ⟨d, hd⟩ := hread
  apply Bool.eq_false_iff.mpr
  intro hidle
  rcases isIdle_iff.mp hidle with rfl | ⟨rest, rfl⟩
  · cases hd
  · cases hd

theorem accepts_trim_of_writes (h : routine.Writes line) : Accepts (trim line) routine := by
  cases h with
  | @function name minimum maximum rule lead head gap₁ gap₂ type gap₃ tail hname hrule hlead hhead
      hgap₁ hgap₂ htype hgap₃ =>
    let front := head ++ gap₁ ++ (':' :: gap₂ ++ type) ++ gap₃
    have hfront : Stops isBlank (front ++ ';' :: tail) := by
      simp only [front, List.append_assoc]
      exact hhead.stops_blank isPlainName_function
    obtain ⟨rest, htrim⟩ := exists_trim_eq hlead hfront (by decide)
    obtain ⟨hne, hword⟩ := htype.isWord hrule
    obtain ⟨written, hlower, hwritten⟩ := hhead.exists_isWritten rest
      (fun _ => SpellsName.writesKind_function) hname hgap₁ (.colon hgap₂ hne hword) hgap₃
    have hline : lead ++ head ++ gap₁ ++ ':' :: gap₂ ++ type ++ gap₃ ++ ';' :: tail =
        lead ++ front ++ ';' :: tail := by simp [front]
    rw [hline, htrim, ← hlower]
    exact .function hwritten rfl rfl (htype.ofName? hrule)
  | @procedure name minimum maximum lead head gap tail hname hlead hhead hgap =>
    have hfront : Stops isBlank (head ++ gap ++ ';' :: tail) := by
      rw [List.append_assoc]
      exact hhead.stops_blank isPlainName_procedure
    obtain ⟨rest, htrim⟩ := exists_trim_eq hlead hfront (by decide)
    obtain ⟨written, hlower, hwritten⟩ := hhead.exists_isWritten rest
      (fun _ hkeyword => .procedure hkeyword.writesWord) hname hgap .none isGap_nil
    simp only [List.append_nil] at hwritten
    have hline : lead ++ head ++ gap ++ ';' :: tail = lead ++ (head ++ gap) ++ ';' :: tail := by
      simp
    rw [hline, htrim, ← hlower]
    exact .procedure hwritten rfl

/-- What the lines write is what they declare. -/
theorem forall₂_accepts_of_writesAll {routines : List BuiltinRoutine} {lines : List (List Char)}
    (h : WritesAll routines lines) (number : Nat) :
    List.Forall₂ Accepts ((declaring lines number).map Prod.fst) routines := by
  induction h generalizing number with
  | nil => exact .nil
  | entry _ hwrites _ ih =>
    have haccepts := accepts_trim_of_writes hwrites
    rw [declaring_cons, haccepts.isIdle_eq_false, if_neg Bool.false_ne_true]
    exact .cons haccepts (ih _)
  | idle _ hidle _ ih =>
    rw [declaring_cons, if_pos (isIdle_trim_of_isIdleLine hidle), List.nil_append]
    exact ih _

/-- The lines that declare something in a written file are those of the lines that were written. -/
theorem declaringLines_written {lines : List (List Char)} {ending : List Char}
    (hending : ending ∈ lineBreaks) (hlines : ∀ line ∈ lines, IsOneLine line) :
    declaringLines (String.ofList (ending.intercalate lines)).toUTF8.data.toList =
      declaring lines 1 := by
  rw [declaringLines, Utf8.decode_toUTF8, String.toList_ofList]
  by_cases hne : lines = []
  · rw [hne]
    rfl
  · rw [splitLines_foldNewlines hending hlines hne]

theorem isOneLine_of_writesAll {routines : List BuiltinRoutine} {lines : List (List Char)}
    (h : WritesAll routines lines) : ∀ line ∈ lines, IsOneLine line := by
  induction h with
  | nil => simp
  | entry hline _ _ ih => exact List.forall_mem_cons.mpr ⟨hline, ih⟩
  | idle hline _ _ ih => exact List.forall_mem_cons.mpr ⟨hline, ih⟩

/-- **The load undoes the writing**: whichever way the routines of a catalogue are written, the load
of the file into an empty loader gives the catalogue, without an error and with all its routines
counted. -/
theorem loadFile_written {catalogue : Catalogue} {routines : List BuiltinRoutine}
    {lines : List (List Char)} {ending : List Char}
    (hfunctions : routines.filter (·.isFunction) = catalogue.functions)
    (hprocedures : routines.filter (!·.isFunction) = catalogue.procedures)
    (hdistinct : BuiltinRoutine.AreDistinct catalogue.functions)
    (hdistinct' : BuiltinRoutine.AreDistinct catalogue.procedures)
    (hwrites : WritesAll routines lines) (hending : ending ∈ lineBreaks)
    (files : FileTree) (path : Path) (hfile : files.look path =
      some (.file (String.ofList (ending.intercalate lines)).toUTF8.data.toList)) :
    ∃ loaded, ({} : Loader).loadFile files path = .ok loaded ∧
      loaded.loader = ⟨catalogue, []⟩ ∧
      loaded.count = catalogue.functions.length + catalogue.procedures.length := by
  obtain ⟨loaded, accepted, errors, hload, hsorts, hloaded, hcount⟩ :=
    exists_sorts_loadFile {} hfile
  rw [declaringLines_written hending (isOneLine_of_writesAll hwrites)] at hsorts
  obtain ⟨rfl, rfl⟩ := hsorts.eq_of_forall₂_accepts (forall₂_accepts_of_writesAll hwrites 1)
  have hstored : accepted.foldl Catalogue.store {} = catalogue := by
    have hf := Catalogue.functions_storeAll {} accepted
    have hp := Catalogue.procedures_storeAll {} accepted
    rw [hfunctions, BuiltinRoutine.insertAll_nil_of_distinct hdistinct] at hf
    rw [hprocedures, BuiltinRoutine.insertAll_nil_of_distinct hdistinct'] at hp
    exact congrArg₂ Catalogue.mk hf hp
  refine ⟨loaded, hload, ?_, ?_⟩
  · rw [hloaded, hstored]
    rfl
  · rw [hcount, ← hfunctions, ← hprocedures]
    exact List.length_eq_length_filter_add _

/-- A comment, a function in capitals and with white space, and a procedure with the name of a kind.
-/
theorem loadFile_written_layout :
    ∃ loaded, ({} : Loader).loadFile
        ⟨[], [(["t"], .file (String.ofList (List.intercalate ['\r', '\n']
          ["// t".toList, "\tFUNCTION Same\t( 2 ) : Real ;.".toList,
            "procedure function(0..1);".toList])).toUTF8.data.toList)]⟩ ⟨"", ["t"]⟩ = .ok loaded ∧
      loaded.loader =
        ⟨⟨[⟨"same", 2, 2, some (.fixed .real)⟩], [⟨"function", 0, 1, none⟩]⟩, []⟩ ∧
      loaded.count = 2 := by
  have hfunction : BuiltinRoutine.Writes ⟨"same", 2, 2, some (.fixed .real)⟩
      "\tFUNCTION Same\t( 2 ) : Real ;.".toList := by
    have hhead : BuiltinRoutine.WritesHead "function" "same" 2 2
        ("FUNCTION".toList ++ [' '] ++ "Same".toList ++ ['\t'] ++ '(' :: [' '] ++ ['2'] ++ [' '] ++
          [] ++ [] ++ [')']) :=
      .mk (by decide) (by decide) isGap_space (by decide)
        (by decide) isGap_space (writesNumber_toDigits 2) isGap_space .same isGap_nil
    have hname : IsPlainName "same" := ⟨'s', "ame".toList, rfl, by decide, by decide⟩
    have hgap : IsGap ['\t'] := by decide
    have htype : SpellsName (ResultRule.fixed .real).name "Real".toList := by decide
    exact .function ['.'] hname (by decide) hgap hhead isGap_space isGap_space htype isGap_space
  have hprocedure : BuiltinRoutine.Writes ⟨"function", 0, 1, none⟩
      "procedure function(0..1);".toList :=
    BuiltinRoutine.writes_procedure isPlainName_function 0 1
  have hwrites : WritesAll [⟨"same", 2, 2, some (.fixed .real)⟩, ⟨"function", 0, 1, none⟩]
      ["// t".toList, "\tFUNCTION Same\t( 2 ) : Real ;.".toList,
        "procedure function(0..1);".toList] :=
    .idle (by decide) (.comment isGap_nil)
      (.entry (by decide) hfunction
        (.entry (by decide) hprocedure .nil))
  exact loadFile_written rfl rfl (by decide) (by decide) hwrites (by decide) _ _ rfl

end Loader
end PascalCheck
