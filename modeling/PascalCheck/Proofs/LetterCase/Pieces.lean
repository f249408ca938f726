import PascalCheck.Proofs.LetterCase.Text
import PascalCheck.Token.Lexing

/-! # Letter case and the pieces of a source

A source text and the same text with its ASCII letters in lower case are cut at the same places,
because no letter takes part in opening or closing a comment or a string, and no other test looks
at the case of a letter. -/
namespace PascalCheck

namespace PieceKind

/-- The kind of a piece when its letters are in lower case. Of the tokens, only names and strings
keep the case of their letters. -/
def toLower : PieceKind → PieceKind
  | .lexeme .identifier text => .lexeme .identifier text.toLower
  | .lexeme .stringLiteral text => .lexeme .stringLiteral text.toLower
  | .unrecognized c => .unrecognized c.toLower
  | kind => kind

end PieceKind

namespace Piece

/-- The piece with its letters in lower case. -/
def toLower (piece : Piece) : Piece :=
  ⟨piece.kind.toLower, piece.source.map Char.toLower⟩

/-! ## Characters -/

/-- Lower case makes a character into one that is no letter only where it is that character. -/
theorem toLower_eq_iff {d : Char} (hd : d.isAlpha = false) (c : Char) :
    c.toLower = d ↔ c = d := by
  have hcapital : ∀ c ∈ Text.capitals, c.isAlpha = true ∧ c.toLower.isAlpha = true := by decide
  rcases Text.toLower_eq_or_mem_capitals c with h | h
  · rw [h]
  · constructor
    · rintro rfl
      exact absurd hd (by simp [(hcapital c h).2])
    · rintro rfl
      exact absurd hd (by simp [(hcapital c h).1])

/-- What a character begins is asked of it in one of these ways, and none sees the case of a letter.
-/
@[simp] theorem isBlank_toLower (c : Char) : Text.isBlank c.toLower = Text.isBlank c :=
  Text.apply_toLower (by decide) c

@[simp] theorem opensString_toLower (c : Char) : opensString c.toLower = opensString c :=
  Text.apply_toLower (by decide) c

@[simp] theorem isDigit_toLower (c : Char) : isDigit c.toLower = isDigit c :=
  Text.apply_toLower (by decide) c

@[simp] theorem beginsWord_toLower (c : Char) : beginsWord c.toLower = beginsWord c :=
  Text.apply_toLower (by decide) c

@[simp] theorem continuesWord_toLower (c : Char) : continuesWord c.toLower = continuesWord c :=
  Text.apply_toLower (by decide) c

/-- No letter is a mark. -/
@[simp] theorem singleMark?_toLower (c : Char) : singleMark? c.toLower = singleMark? c :=
  Text.apply_toLower (by decide) c

/-- A digit has no case. -/
theorem toLower_of_isDigit {c : Char} (h : isDigit c = true) : c.toLower = c := by
  have hcapital : ∀ c ∈ Text.capitals, isDigit c = false := by decide
  rcases Text.toLower_eq_or_mem_capitals c with hc | hc
  · exact hc
  · simp [hcapital c hc] at h

/-- The marks of two characters, by cases. -/
theorem doubleMark?_eq (c d : Char) : doubleMark? c d =
    if c = ':' ∧ d = '=' then some .assign
    else if c = '.' ∧ d = '.' then some .dotDot
    else if c = '<' ∧ (d = '=' ∨ d = '>') ∨ c = '>' ∧ d = '=' then some .relation
    else none := by
  unfold doubleMark?
  split <;> grind

/-- No mark of two characters has a letter in it. -/
@[simp] theorem doubleMark?_toLower (c d : Char) :
    doubleMark? c.toLower d.toLower = doubleMark? c d := by
  simp [doubleMark?_eq, toLower_eq_iff]

/-! ## Comments -/

/-- Whether a text begins with marks does not depend on the case of its letters. -/
theorem isPrefixOf_map_toLower {marks : List Char} (hm : ∀ c ∈ marks, c.isAlpha = false)
    (cs : List Char) : marks.isPrefixOf (cs.map Char.toLower) = marks.isPrefixOf cs := by
  induction marks generalizing cs with
  | nil => simp
  | cons m marks ih =>
    cases cs with
    | nil => rfl
    | cons c rest =>
      have hc : (m == c.toLower) = (m == c) := by
        have h := toLower_eq_iff (hm m (by simp)) c
        rw [Bool.eq_iff_iff, beq_iff_eq, beq_iff_eq, eq_comm, h, eq_comm]
      simp [List.isPrefixOf, hc, ih (fun c hc => hm c (by simp [hc]))]

/-- A text is cut behind the same closing marks. -/
theorem through_map_toLower {closer : List Char} (hm : ∀ c ∈ closer, c.isAlpha = false)
    (cs : List Char) :
    through closer (cs.map Char.toLower) =
      ((through closer cs).1.map Char.toLower, (through closer cs).2.map Char.toLower) := by
  induction cs with
  | nil => rfl
  | cons c rest ih =>
    have hprefix := isPrefixOf_map_toLower hm (c :: rest)
    rw [List.map_cons] at hprefix
    by_cases h : closer.isPrefixOf (c :: rest) = true
    · simp [through, hprefix, h, List.map_take, List.map_drop]
    · simp [through, hprefix, h, ih]

/-- How a comment opens, by cases. -/
theorem comment?_cons (c : Char) (rest : List Char) : comment? (c :: rest) =
    if c = '\x7b' then
      some (c :: (through ['\x7d'] rest).1, (through ['\x7d'] rest).2)
    else match rest with
      | [] => none
      | d :: more =>
        if c = '(' ∧ d = '*' then
          some (c :: d :: (through ['*', ')'] more).1, (through ['*', ')'] more).2)
        else if c = '/' ∧ d = '/' then
          some (c :: d :: more.takeWhile (· != '\n'), more.dropWhile (· != '\n'))
        else if c = '/' ∧ d = '*' then
          some (c :: d :: (through ['*', '/'] more).1, (through ['*', '/'] more).2)
        else none := by
  cases rest with
  | nil => by_cases h : c = '\x7b' <;> simp_all [comment?]
  | cons d more =>
    unfold comment?
    split <;> simp_all
    grind

/-- So a comment is as long in either case. -/
theorem comment?_map_toLower (cs : List Char) :
    comment? (cs.map Char.toLower) =
      (comment? cs).map fun cut => (cut.1.map Char.toLower, cut.2.map Char.toLower) := by
  have hbrace : ∀ cs, through ['\x7d'] (cs.map Char.toLower) =
      ((through ['\x7d'] cs).1.map Char.toLower, (through ['\x7d'] cs).2.map Char.toLower) :=
    through_map_toLower (by decide)
  have hround : ∀ cs, through ['*', ')'] (cs.map Char.toLower) =
      ((through ['*', ')'] cs).1.map Char.toLower, (through ['*', ')'] cs).2.map Char.toLower) :=
    through_map_toLower (by decide)
  have hslash : ∀ cs, through ['*', '/'] (cs.map Char.toLower) =
      ((through ['*', '/'] cs).1.map Char.toLower, (through ['*', '/'] cs).2.map Char.toLower) :=
    through_map_toLower (by decide)
  have hline : ((· != '\n') ∘ Char.toLower) = (· != '\n') := by
    funext c
    show (c.toLower != '\n') = (c != '\n')
    rw [Bool.eq_iff_iff, bne_iff_ne, bne_iff_ne, ne_eq, ne_eq, toLower_eq_iff rfl]
  cases cs with
  | nil => rfl
  | cons c rest =>
    cases rest with
    | nil =>
      by_cases h : c = '\x7b' <;> simp [comment?_cons, toLower_eq_iff, h, through]
    | cons d more =>
      have hbody := hbrace (d :: more)
      rw [List.map_cons] at hbody
      simp only [List.map_cons, comment?_cons, toLower_eq_iff, Char.reduceIsAlpha, hbody, hround,
        hslash, List.takeWhile_map, List.dropWhile_map, hline]
      split
      · rfl
      · split
        · rfl
        · split
          · rfl
          · split <;> rfl

/-! ## Lexemes -/

/-- A string is as long in either case; what is in it keeps its case. -/
theorem stringBody_map_toLower {delimiter : Char} (hd : opensString delimiter = true)
    (cs : List Char) : stringBody delimiter (cs.map Char.toLower) =
      ⟨(stringBody delimiter cs).source.map Char.toLower,
        (stringBody delimiter cs).meaning.map Char.toLower,
        (stringBody delimiter cs).rest.map Char.toLower⟩ := by
  have hletter : delimiter.isAlpha = false := by
    simp only [opensString, Bool.or_eq_true, beq_iff_eq] at hd
    rcases hd with rfl | rfl <;> decide
  fun_induction stringBody delimiter cs <;>
    simp_all +zetaDelta [stringBody, toLower_eq_iff]

/-- The letters of a number, of which there are none, keep their case. -/
theorem map_toLower_takeWhile_isDigit (cs : List Char) :
    (cs.takeWhile isDigit).map Char.toLower = cs.takeWhile isDigit := by
  conv => rhs; rw [← List.map_id (cs.takeWhile isDigit)]
  exact List.map_congr_left fun c hc =>
    toLower_of_isDigit (List.all_eq_true.mp List.all_takeWhile c hc)

/-- The digits in front of a text are the same in either case. -/
theorem takeWhile_isDigit_map_toLower (cs : List Char) :
    (cs.map Char.toLower).takeWhile isDigit = cs.takeWhile isDigit := by
  have hdigit : isDigit ∘ Char.toLower = isDigit := funext isDigit_toLower
  rw [List.takeWhile_map, hdigit, map_toLower_takeWhile_isDigit]

theorem dropWhile_isDigit_map_toLower (cs : List Char) :
    (cs.map Char.toLower).dropWhile isDigit = (cs.dropWhile isDigit).map Char.toLower := by
  have hdigit : isDigit ∘ Char.toLower = isDigit := funext isDigit_toLower
  rw [List.dropWhile_map, hdigit]

/-- A number with a fraction, behind its point. -/
theorem number_of_fraction {cs rest : List Char} {d : Char}
    (h : cs.dropWhile isDigit = '.' :: d :: rest) (hd : isDigit d = true) :
    number cs =
      (⟨.lexeme .realLiteral
          (String.ofList (cs.takeWhile isDigit ++ '.' :: (d :: rest).takeWhile isDigit)),
        cs.takeWhile isDigit ++ '.' :: (d :: rest).takeWhile isDigit⟩,
      (d :: rest).dropWhile isDigit) := by
  simp [number, h, hd]

/-- A number without a fraction: behind it stands no point, or no digit behind the point. -/
theorem number_of_no_fraction {cs : List Char}
    (h : ∀ d rest, cs.dropWhile isDigit = '.' :: d :: rest → isDigit d = false) :
    number cs =
      (⟨.lexeme .integerLiteral (String.ofList (cs.takeWhile isDigit)), cs.takeWhile isDigit⟩,
        cs.dropWhile isDigit) := by
  unfold number
  split
  next d rest hd => simp [h d rest hd, hd]
  · rfl

/-- A number is the same in either case. -/
theorem number_map_toLower (cs : List Char) : number (cs.map Char.toLower) =
    ((number cs).1.toLower, (number cs).2.map Char.toLower) := by
  have hdrop := dropWhile_isDigit_map_toLower cs
  by_cases h : ∃ d rest, cs.dropWhile isDigit = '.' :: d :: rest ∧ isDigit d = true
  · obtain ⟨d, rest, h, hd⟩ := h
    rw [h] at hdrop
    rw [number_of_fraction h hd, number_of_fraction hdrop (by rw [isDigit_toLower, hd]),
      takeWhile_isDigit_map_toLower, ← List.map_cons, takeWhile_isDigit_map_toLower,
      dropWhile_isDigit_map_toLower]
    simp only [toLower, PieceKind.toLower, List.map_append, List.map_cons,
      map_toLower_takeWhile_isDigit]
    rfl
  · have hno : ∀ d rest, cs.dropWhile isDigit = '.' :: d :: rest → isDigit d = false :=
      fun d rest hd => Bool.eq_false_iff.mpr fun hdigit => h ⟨d, rest, hd, hdigit⟩
    rw [number_of_no_fraction hno, number_of_no_fraction, takeWhile_isDigit_map_toLower, hdrop]
    · simp only [toLower, PieceKind.toLower, map_toLower_takeWhile_isDigit]
    · intro d rest hd
      rw [hdrop] at hd
      obtain ⟨c, more, hcs, hc, hmore⟩ := List.map_eq_cons_iff.mp hd
      obtain ⟨d', rest', rfl, rfl, rfl⟩ := List.map_eq_cons_iff.mp hmore
      rw [(toLower_eq_iff rfl c).mp hc] at hcs
      rw [isDigit_toLower, hno d' rest' hcs]

/-- A word is as long in either case, and is looked up among the keywords in lower case. -/
theorem word_map_toLower (cs : List Char) : word (cs.map Char.toLower) =
    ((word cs).1.toLower, (word cs).2.map Char.toLower) := by
  have hword : continuesWord ∘ Char.toLower = continuesWord := funext continuesWord_toLower
  have hspelling : String.ofList ((cs.takeWhile continuesWord).map Char.toLower) =
      (String.ofList (cs.takeWhile continuesWord)).toLower := by
    simp [← String.toList_inj]
  simp only [word, List.takeWhile_map, List.dropWhile_map, hword, hspelling, Text.lower_toLower]
  split <;> rfl

theorem toLower_of_singleMark? {c : Char} {kind : TokenKind} (h : singleMark? c = some kind) :
    c.toLower = c := by
  have hcapital : ∀ c ∈ Text.capitals, singleMark? c = none := by decide
  rcases Text.toLower_eq_or_mem_capitals c with hc | hc
  · exact hc
  · simp [hcapital c hc] at h

theorem single_toLower (c : Char) : single c.toLower = (single c).toLower := by
  unfold single
  rw [singleMark?_toLower]
  cases h : singleMark? c with
  | none => rfl
  | some kind =>
    rw [toLower_of_singleMark? h]
    unfold singleMark? at h
    split at h <;> cases h <;> rfl

/-- A mark is the same in either case; a character that begins nothing is reported in its own. -/
theorem mark_map_toLower (c : Char) (rest : List Char) : mark c.toLower (rest.map Char.toLower) =
    ((mark c rest).1.toLower, (mark c rest).2.map Char.toLower) := by
  cases rest with
  | nil => simp [mark, single_toLower]
  | cons d more =>
    simp only [List.map_cons, mark, doubleMark?_toLower]
    cases h : doubleMark? c d with
    | none => simp [single_toLower]
    | some kind =>
      unfold doubleMark? at h
      split at h <;> cases h <;> rfl

/-! ## Pieces -/

/-- **The first piece is as long in either case**, and of the same kind up to the case of its text.
-/
theorem first_toLower (c : Char) (rest : List Char) : first c.toLower (rest.map Char.toLower) =
    ((first c rest).1.toLower, (first c rest).2.map Char.toLower) := by
  have hcomment := comment?_map_toLower (c :: rest)
  have hnumber := number_map_toLower (c :: rest)
  have hword := word_map_toLower (c :: rest)
  rw [List.map_cons] at hcomment hnumber hword
  unfold first
  rw [isBlank_toLower, hcomment, opensString_toLower, isDigit_toLower, beginsWord_toLower, hnumber,
    hword, mark_map_toLower]
  split
  · rfl
  · cases comment? (c :: rest) with
    | some cut => rfl
    | none =>
      by_cases hs : opensString c = true
      · have hc : c.toLower = c := by
          simp only [opensString, Bool.or_eq_true, beq_iff_eq] at hs
          rcases hs with rfl | rfl <;> rfl
        simp [hs, hc, stringBody_map_toLower hs, toLower, PieceKind.toLower, ← String.toList_inj]
      · simp only [Option.map_none, hs]
        split
        · contradiction
        · split
          · rfl
          · split <;> rfl

/-- **A source text is cut at the same places in any letter case.** -/
theorem split_map_toLower (cs : List Char) :
    split (cs.map Char.toLower) = (split cs).map toLower := by
  fun_induction split cs with
  | case1 => rw [List.map_nil, split, List.map_nil]
  | case2 c rest ih =>
    rw [List.map_cons, split, first_toLower, List.map_cons]
    exact congrArg _ ih

end Piece
end PascalCheck
