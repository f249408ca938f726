import PascalCheck.Proofs.Grammar.DeclarationReading
import PascalCheck.Proofs.Grammar.NamedTypes
import PascalCheck.Proofs.LetterCase.Statements

/-! # Reading of programs does not see the case of names

The rules look at the kinds of tokens.  Of the texts, they look at that of an equals sign, at that
of a string, and, in lower case, at that of a type name. -/
namespace PascalCheck
namespace Grammar

variable {finish : EndMark}

/-! ## Declarations -/

/-- The body of a routine or a program, and the line on which it begins. -/
theorem body_map_foldName (tokens : List Token) :
    body finish (tokens.map Token.foldName) = (body finish tokens).foldNames Body.foldNames := by
  simp only [body, next_map_foldName, Token.line_foldName, expect_map_foldName,
    Step.foldNames_used, ← List.map_drop, block_map_foldName, Step.andThen_foldNames,
    Step.foldNames_value]
  rfl

/-- A name that is declared is put in lower case. -/
theorem declaredName_map_foldName (tokens : List Token) :
    declaredName finish (tokens.map Token.foldName) =
      (declaredName finish tokens).foldNames (List.map DeclaredName.foldNames) := by
  cases tokens with
  | nil => rfl
  | cons t rest =>
    by_cases h : t.kind = .identifier
    · simp [declaredName, expect, h, Token.text_foldName h, Step.as, Step.foldNames,
        DeclaredName.foldNames]
    · have hfault := @refuse_map_foldName finish (.token .identifier) (t :: rest)
      rw [List.map_cons] at hfault
      simp only [declaredName, List.map_cons, expect, Token.kind_foldName, h, if_false, hfault]
      rfl

theorem moreNames_map_foldName (tokens : List Token) :
    moreNames finish (tokens.map Token.foldName) =
      (moreNames finish tokens).foldNames (List.map DeclaredName.foldNames) :=
  isLoop_moreNames.map_foldName (Assembly.optional_foldsBy _) declaredName_map_foldName tokens

/-- So are all names of a list. -/
theorem nameList_map_foldName (tokens : List Token) :
    nameList finish (tokens.map Token.foldName) =
      (nameList finish tokens).foldNames (List.map DeclaredName.foldNames) := by
  simp only [nameList, declaredName_map_foldName, Step.foldNames_value, Step.foldNames_used,
    ← List.map_drop, moreNames_map_foldName, Step.andThen_foldNames, ← List.map_append,
    Step.as_foldNames _ (List.map DeclaredName.foldNames)]

/-- The bounds of an array are passed over, whatever is in them. -/
theorem bounds_map_foldName (tokens : List Token) :
    bounds (tokens.map Token.foldName) = (bounds tokens).foldNames id := by
  simp only [bounds, List.takeWhile_map, List.length_map, Function.comp_def, Token.kind_foldName]
  rfl

/-- In full lower case a token has the same text. -/
theorem lower_text_foldName (t : Token) : Text.lower t.foldName.text = Text.lower t.text :=
  Text.lower_eq_of_toLower_eq t.toLower_text_foldName

/-- The name of a type is looked at in lower case, so that the type is the same. -/
theorem typeName_map_foldName (tokens : List Token) :
    typeName finish (tokens.map Token.foldName) = (typeName finish tokens).foldNames id := by
  cases tokens with
  | nil => rfl
  | cons t rest =>
    have hfault := @refuse_map_foldName finish .typeName (t :: rest)
    rw [List.map_cons] at hfault
    simp only [List.map_cons, typeName, Token.kind_foldName, lower_text_foldName, hfault,
      startsWith_map_foldName, ← List.map_drop, bounds_map_foldName, Step.past_foldNames,
      Step.foldNames_used, accept_map_foldName, Step.andThen_foldNames]
    split
    · split <;> rfl
    · rfl

/-- The type of an array is that of its elements, through any number of dimensions. -/
theorem typeSpec_map_foldName (tokens : List Token) :
    typeSpec finish (tokens.map Token.foldName) = (typeSpec finish tokens).foldNames id := by
  fun_induction typeSpec finish tokens with
  | case1 => rw [List.map_nil, typeSpec]; exact typeName_map_foldName []
  | case2 t rest ht opened inside closed head element ih =>
    rw [List.map_cons, typeSpec, Token.kind_foldName, if_pos ht]
    simp only [expect_map_foldName, Step.foldNames_used, ← List.map_drop, bounds_map_foldName,
      Step.andThen_foldNames]
    rw [ih, Step.andThen_foldNames]
    rfl
  | case3 t rest ht =>
    rw [List.map_cons, typeSpec, Token.kind_foldName, if_neg ht, ← List.map_cons,
      typeName_map_foldName]

/-- The equals sign is told by its text, which is not that of a name. -/
theorem equalsSign_map_foldName (tokens : List Token) :
    equalsSign finish (tokens.map Token.foldName) = (equalsSign finish tokens).foldNames id := by
  cases tokens with
  | nil => rfl
  | cons t rest =>
    have hfault := @refuse_map_foldName finish .equals (t :: rest)
    rw [List.map_cons] at hfault
    simp only [List.map_cons, equalsSign, Token.kind_foldName, hfault]
    by_cases h : t.kind = .relation
    · rw [Token.foldName_of_ne (by simp [h])]
      split <;> rfl
    · simp only [h, false_and, if_false]

/-- Each constant is read with its name and the names in its value. -/
theorem constSection_map_foldName (tokens : List Token) :
    constSection finish (tokens.map Token.foldName) =
      (constSection finish tokens).foldNames (List.map ConstDeclaration.foldNames) := by
  fun_induction constSection finish tokens with
  | case1 => rw [List.map_nil, constSection]; rfl
  | case2 name rest hn equals value closed more ih =>
    rw [List.map_cons, constSection, Token.kind_foldName, if_pos hn]
    simp only [equalsSign_map_foldName, expect_map_foldName, expression_map_foldName,
      Step.foldNames_value, Step.foldNames_used, ← List.map_drop, Step.andThen_foldNames,
      Token.text_foldName hn, Token.line_foldName]
    rw [ih, Step.andThen_foldNames]
    rfl
  | case3 name rest hn =>
    rw [List.map_cons, constSection, Token.kind_foldName, if_neg hn]
    rfl

theorem varDeclaration_map_foldName (tokens : List Token) :
    varDeclaration finish (tokens.map Token.foldName) =
      (varDeclaration finish tokens).foldNames VarDeclaration.foldNames := by
  simp only [varDeclaration, nameList_map_foldName, expect_map_foldName, typeSpec_map_foldName,
    next_map_foldName, Step.foldNames_value, Step.foldNames_used, ← List.map_drop,
    Step.andThen_foldNames, Token.line_foldName]
  rfl

/-- Each declaration of variables is read with its names. -/
theorem varSection_map_foldName (tokens : List Token) :
    varSection finish (tokens.map Token.foldName) =
      (varSection finish tokens).foldNames (List.map VarDeclaration.foldNames) := by
  fun_induction varSection finish tokens with
  | case1 => rw [List.map_nil, varSection]; rfl
  | case2 t rest ht one closed more ih =>
    rw [List.map_cons, varSection, Token.kind_foldName, if_pos ht]
    simp only [← List.map_cons, varDeclaration_map_foldName, expect_map_foldName,
      Step.foldNames_value, Step.foldNames_used, ← List.map_drop, Step.andThen_foldNames]
    rw [ih, Step.andThen_foldNames]
    rfl
  | case3 t rest ht =>
    rw [List.map_cons, varSection, Token.kind_foldName, if_neg ht]
    rfl

/-- The declarations of a routine are sections of either kind. -/
theorem localSections_map_foldName (tokens : List Token) :
    localSections finish (tokens.map Token.foldName) =
      (localSections finish tokens).foldNames Node.foldAllNames := by
  fun_induction localSections finish tokens with
  | case1 => rw [List.map_nil, localSections]; rfl
  | case2 t rest ht one more ih =>
    rw [List.map_cons, localSections, Token.kind_foldName, if_pos ht]
    simp only [varSection_map_foldName, Step.foldNames_value, Step.foldNames_used,
      ← List.map_drop, Token.line_foldName]
    rw [ih, Step.andThen_foldNames]
    rfl
  | case3 t rest hv hc one more ih =>
    rw [List.map_cons, localSections, Token.kind_foldName, if_neg hv, if_pos hc]
    simp only [constSection_map_foldName, Step.foldNames_value, Step.foldNames_used,
      ← List.map_drop, Token.line_foldName]
    rw [ih, Step.andThen_foldNames]
    rfl
  | case4 t rest hv hc =>
    rw [List.map_cons, localSections, Token.kind_foldName, if_neg hv, if_neg hc]
    rfl

/-- The word in front of parameters is a keyword. -/
theorem modifier_map_foldName (tokens : List Token) :
    modifier (tokens.map Token.foldName) = (modifier tokens).foldNames id := by
  cases tokens with
  | nil => rfl
  | cons t rest =>
    simp only [List.map_cons, modifier, Token.kind_foldName]
    split
    next h =>
      rw [Token.foldName_of_ne (by rintro hid; simp [hid] at h)]
      rfl
    · rfl

/-- The parameters that share a type are read with their names. -/
theorem parameterGroup_map_foldName (tokens : List Token) :
    parameterGroup finish (tokens.map Token.foldName) =
      (parameterGroup finish tokens).foldNames (List.map Parameter.foldNames) := by
  simp only [parameterGroup, modifier_map_foldName, nameList_map_foldName, expect_map_foldName,
    typeSpec_map_foldName, Step.foldNames_value, Step.foldNames_used, ← List.map_drop,
    Step.andThen_foldNames, List.map_map]
  simp [Step.as, Step.foldNames, Function.comp_def, DeclaredName.foldNames, Parameter.foldNames]

theorem parameters_map_foldName (tokens : List Token) :
    parameters finish (tokens.map Token.foldName) =
      (parameters finish tokens).foldNames (List.map Parameter.foldNames) := by
  rw [parameters_eq]
  exact parenthesized_map_foldName isLoop_moreParameters (Assembly.groups_foldsBy _)
    parameterGroup_map_foldName tokens

/-- The name that is given to a routine without one is in lower case already. -/
theorem toLower_unknown : "unknown".toLower = "unknown" := by
  simp [← String.toList_inj]

/-- A function is read with its name and all names inside; the name of its result type stays. -/
theorem functionDeclaration_map_foldName (line : Int) (rest : List Token) :
    functionDeclaration finish line (rest.map Token.foldName) =
      (functionDeclaration finish line rest).foldNames Node.foldNames := by
  simp only [functionDeclaration, expect_map_foldName, parameters_map_foldName,
    typeSpec_map_foldName, localSections_map_foldName, body_map_foldName, Step.foldNames_value,
    Step.foldNames_used, ← List.map_drop, Step.andThen_foldNames,
    nameOr_expect_foldName toLower_unknown]
  rfl

theorem procedureDeclaration_map_foldName (line : Int) (rest : List Token) :
    procedureDeclaration finish line (rest.map Token.foldName) =
      (procedureDeclaration finish line rest).foldNames Node.foldNames := by
  simp only [procedureDeclaration, expect_map_foldName, parameters_map_foldName,
    localSections_map_foldName, body_map_foldName, Step.foldNames_value, Step.foldNames_used,
    ← List.map_drop, Step.andThen_foldNames, nameOr_expect_foldName toLower_unknown]
  rfl

/-! ## Programs -/

/-- The files of the heading leave nothing in the tree. -/
theorem moreFiles_map_foldName (tokens : List Token) :
    moreFiles (tokens.map Token.foldName) = (moreFiles tokens).foldNames id :=
  isLoop_moreFiles.map_foldName ⟨rfl, fun _ _ => rfl⟩ (accept_map_foldName .identifier) tokens

theorem files_map_foldName (tokens : List Token) :
    files finish (tokens.map Token.foldName) = (files finish tokens).foldNames id := by
  simp only [files, startsWith_map_foldName, ← List.map_drop, accept_map_foldName,
    Step.past_foldNames, Step.foldNames_used, moreFiles_map_foldName, Step.andThen_foldNames,
    expect_map_foldName]
  split <;> rfl

/-- The heading leaves the name of the program. -/
theorem heading_map_foldName (tokens : List Token) :
    heading finish (tokens.map Token.foldName) =
      (heading finish tokens).foldNames String.toLower := by
  have hanonymous : "anonymous".toLower = "anonymous" := by
    simp [← String.toList_inj]
  simp only [heading, startsWith_map_foldName, ← List.map_drop, expect_map_foldName,
    Step.past_foldNames, Step.foldNames_used, Step.foldNames_value, files_map_foldName,
    Step.andThen_foldNames, Step.past_value, nameOr_expect_foldName toLower_unknown]
  split
  · rfl
  · simp [Step.foldNames, hanonymous]

theorem units_map_foldName (tokens : List Token) :
    units (tokens.map Token.foldName) = (units tokens).foldNames id := by
  simp only [units, startsWith_map_foldName, ← List.map_drop, List.takeWhile_map,
    List.length_map, Function.comp_def, Token.kind_foldName, accept_map_foldName]
  split <;> rfl

/-- Declarations are read until something else comes, which the kinds of the tokens tell. -/
theorem declarations_map_foldName (tokens : List Token) :
    declarations finish (tokens.map Token.foldName) =
      (declarations finish tokens).foldNames Node.foldAllNames := by
  fun_induction declarations finish tokens with
  | case1 => rw [List.map_nil, declarations]; rfl
  | case2 t rest ht one more ih =>
    rw [List.map_cons, declarations]
    simp only [Token.kind_foldName, ht, constSection_map_foldName, Step.foldNames_value,
      Step.foldNames_used, ← List.map_drop, Token.line_foldName]
    rw [ih, Step.andThen_foldNames]
    rfl
  | case3 t rest ht count ih =>
    rw [List.map_cons, declarations]
    simp only [Token.kind_foldName, ht, List.takeWhile_map, List.length_map, Function.comp_def,
      ← List.map_drop]
    rw [ih, Step.past_foldNames]
  | case4 t rest ht one more ih =>
    rw [List.map_cons, declarations]
    simp only [Token.kind_foldName, ht, varSection_map_foldName, Step.foldNames_value,
      Step.foldNames_used, ← List.map_drop, Token.line_foldName]
    rw [ih, Step.andThen_foldNames]
    rfl
  | case5 t rest ht one more ih =>
    rw [List.map_cons, declarations]
    simp only [Token.kind_foldName, ht, functionDeclaration_map_foldName, Step.foldNames_value,
      Step.foldNames_used, ← List.map_drop, Token.line_foldName]
    rw [ih, Step.andThen_foldNames]
    rfl
  | case6 t rest ht one more ih =>
    rw [List.map_cons, declarations]
    simp only [Token.kind_foldName, ht, procedureDeclaration_map_foldName, Step.foldNames_value,
      Step.foldNames_used, ← List.map_drop, Token.line_foldName]
    rw [ih, Step.andThen_foldNames]
    rfl
  | case7 t rest hconst htype hvar hfunction hprocedure =>
    rw [List.map_cons, declarations, Token.kind_foldName]
    split <;> first | contradiction | rfl

/-- A program is read with its name, its declarations and its body. -/
theorem program_map_foldName (tokens : List Token) :
    program finish (tokens.map Token.foldName) =
      (program finish tokens).foldNames Program.foldNames := by
  simp only [program, heading_map_foldName, units_map_foldName, declarations_map_foldName,
    body_map_foldName, accept_map_foldName, next_map_foldName, Step.foldNames_value,
    Step.foldNames_used, ← List.map_drop, Step.andThen_foldNames, Token.line_foldName]
  rfl

/-- The end mark is no name, so that cutting it off does not see the case of names. -/
theorem delimit_map_foldName (tokens : List Token) :
    delimit (tokens.map Token.foldName) =
      ((delimit tokens).1.map Token.foldName, (delimit tokens).2) := by
  simp only [delimit, List.getLast?_map]
  cases tokens.getLast? with
  | none => rfl
  | some t =>
    simp only [Option.map_some, Token.kind_foldName, Token.start_foldName, Token.line_foldName,
      Token.column_foldName]
    split
    next h => rw [Token.foldName_of_ne (by simp [h]), List.map_dropLast]
    · rfl

/-- **Programs are read in any letter case of their names.** -/
theorem parse_map_foldName (tokens : List Token) :
    parse (tokens.map Token.foldName) = (parse tokens).foldNames Program.foldNames := by
  simp only [parse, delimit_map_foldName, program_map_foldName]

end Grammar
end PascalCheck
