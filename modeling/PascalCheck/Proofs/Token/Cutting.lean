import PascalCheck.Proofs.Token.Segment

/-! # What is cut off a text is a segment

One lemma for each kind of piece: comments reach their first closer, strings undo the doubling of
their delimiter, and words, numbers and operators are the longest ones that begin where they do.
For the last three it matters that the first character alone tells which of them can begin there. -/
namespace PascalCheck

/-! ## Comments -/

namespace Piece

/-- What is cut off up to a closer ends with the first one, or is all there is. -/
theorem through_cases {closer : List Char} (hc : closer ≠ []) (cs : List Char) :
    (∃ body, (through closer cs).1 = body ++ closer ∧
      ∀ before after, cs = before ++ closer ++ after → body.length ≤ before.length) ∨
    ((through closer cs).2 = [] ∧ ∀ before after, cs ≠ before ++ closer ++ after) := by
  induction cs with
  | nil =>
    right
    refine ⟨rfl, fun before after h => hc ?_⟩
    have hnil := List.append_eq_nil_iff.mp (List.append_eq_nil_iff.mp h.symm).1
    exact hnil.2
  | cons c rest ih =>
    by_cases hp : closer.isPrefixOf (c :: rest)
    · left
      have htake : (c :: rest).take closer.length = closer :=
        (List.prefix_iff_eq_take.mp (List.isPrefixOf_iff_prefix.mp hp)).symm
      refine ⟨[], ?_, fun _ _ _ => Nat.zero_le _⟩
      rw [through, if_pos hp, htake]
      rfl
    · -- A closer does not begin here, so every closer of the text is one of the rest.
      have hlater : ∀ before after, c :: rest = before ++ closer ++ after →
          ∃ before', before = c :: before' ∧ rest = before' ++ closer ++ after := by
        intro before after h
        cases before with
        | nil => exact absurd (List.isPrefixOf_iff_prefix.mpr ⟨after, by simpa using h.symm⟩) hp
        | cons b before' =>
          obtain ⟨rfl, hrest⟩ := List.cons.inj h
          exact ⟨before', rfl, hrest⟩
      rw [through, if_neg hp]
      rcases ih with ⟨body, hbody, hfirst⟩ | ⟨hrest, hno⟩
      · left
        refine ⟨c :: body, by simp [hbody], fun before after h => ?_⟩
        obtain ⟨before', rfl, h'⟩ := hlater before after h
        have := hfirst before' after h'
        simpa using this
      · right
        refine ⟨hrest, fun before after h => ?_⟩
        obtain ⟨before', -, h'⟩ := hlater before after h
        exact hno before' after h'

end Piece

namespace CommentMarks

theorem closer_ne_nil : ∀ marks ∈ all, marks.closer ≠ [] := by decide

/-- What is cut off behind an opener, together with the opener, is a comment. -/
theorem isComment_through (marks : CommentMarks) (h : marks ∈ all) (cs : List Char) :
    IsComment (marks.opener ++ (Piece.through marks.closer cs).1)
      (Piece.through marks.closer cs).2 := by
  have happ := Piece.through_append marks.closer cs
  rcases Piece.through_cases (closer_ne_nil marks h) cs with ⟨body, hbody, hfirst⟩ | ⟨hrest, hno⟩
  · rw [hbody, ← List.append_assoc]
    refine .closed h fun before after heq => hfirst before after ?_
    rw [← happ, hbody, heq]
  · rw [hrest]
    refine .unclosed h ?_
    rw [hrest, List.append_nil] at happ
    rwa [happ]

/-- Whether the first closer is the first one does not hang on what follows it. -/
theorem first_of_first {closer body rest rest' : List Char}
    (hfirst : ∀ before after, body ++ closer ++ rest = before ++ closer ++ after →
      body.length ≤ before.length) :
    ∀ before after, body ++ closer ++ rest' = before ++ closer ++ after →
      body.length ≤ before.length := by
  intro before after heq
  refine Nat.le_of_not_lt fun hlt => ?_
  -- A closer that comes earlier lies in front of whatever follows.
  have hle : (before ++ closer).length ≤ (body ++ closer).length := by
    simp only [List.length_append]
    omega
  have hwithin : before ++ closer <+: body ++ closer :=
    List.prefix_of_prefix_length_le ⟨after, heq.symm⟩ (List.prefix_append _ _) hle
  obtain ⟨between, hbetween⟩ := hwithin
  refine absurd (hfirst before (between ++ rest) ?_) (Nat.not_le_of_lt hlt)
  rw [← hbetween, List.append_assoc _ between]

end CommentMarks

namespace Piece

/-- What is cut off as a comment is one. -/
theorem isComment_of_comment? {cs : List Char} {cut : List Char × List Char}
    (h : comment? cs = some cut) : IsComment cut.1 cut.2 := by
  unfold comment? at h
  split at h
  · cases h
    exact CommentMarks.isComment_through ⟨['\x7b'], ['\x7d']⟩ (by decide) _
  · cases h
    exact CommentMarks.isComment_through ⟨['(', '*'], ['*', ')']⟩ (by decide) _
  · cases h
    next rest =>
    refine .line (fun hmem => ?_) ?_
    · simpa using List.all_eq_true.mp List.all_takeWhile '\n' hmem
    · cases hd : rest.dropWhile (· != '\n') with
      | nil => exact .inl rfl
      | cons c more =>
        have hc := List.head?_dropWhile_not (· != '\n') rest
        exact .inr (by simpa [hd] using hc)
  · cases h
    exact CommentMarks.isComment_through ⟨['/', '*'], ['*', '/']⟩ (by decide) _
  · cases h

/-- Where no comment is cut off, none begins. -/
theorem not_opensComment {cs : List Char} (h : comment? cs = none) : ¬ OpensComment cs := by
  simp only [OpensComment, lineOpener, CommentMarks.all, List.mem_cons, List.not_mem_nil, or_false,
    exists_eq_or_imp, exists_eq_left]
  rintro (⟨rest, rfl⟩ | ⟨rest, rfl⟩ | ⟨rest, rfl⟩ | ⟨rest, rfl⟩) <;> simp [comment?] at h

end Piece

/-! ## Strings -/

@[simp] theorem doubled_nil (delimiter : Char) : doubled delimiter [] = [] := rfl

theorem doubled_cons (delimiter c : Char) (text : List Char) :
    doubled delimiter (c :: text) =
      (if c = delimiter then [c, c] else [c]) ++ doubled delimiter text := rfl

namespace Piece

/-- What is cut off as a string is one. -/
theorem isString_stringBody {delimiter : Char} (h : opensString delimiter = true) (cs : List Char) :
    IsString delimiter (stringBody delimiter cs).meaning
      (delimiter :: (stringBody delimiter cs).source) (stringBody delimiter cs).rest := by
  -- The characters of a string in front of one more keep it a string.
  have hcons : ∀ c {text source rest}, IsString delimiter text (delimiter :: source) rest →
      IsString delimiter (c :: text)
        (delimiter :: (if c = delimiter then [c, c] else [c]) ++ source) rest := by
    intro c text source rest hs
    generalize hcs : delimiter :: source = cs at hs
    cases hs with
    | closed h hend =>
      obtain rfl := (List.cons.inj hcs).2
      have hnext : IsString delimiter (c :: text) _ rest := .closed h hend
      simpa [doubled_cons] using hnext
    | unclosed h =>
      obtain rfl := (List.cons.inj hcs).2
      have hnext : IsString delimiter (c :: text) _ [] := .unclosed h
      simpa [doubled_cons] using hnext
  fun_induction stringBody delimiter cs with
  | case1 => exact .unclosed h
  | case2 => exact .closed h (by simp)
  | case3 c hc =>
    have hnil : IsString delimiter [] [delimiter] [] := .unclosed h
    simpa [hc] using hcons c hnil
  | case4 rest more ih => simpa using hcons delimiter ih
  | case5 d rest hd => exact .closed h (by simpa using hd)
  | case6 c d rest hc more ih => simpa [hc] using hcons c ih

end Piece

/-! ## Words, numbers and operators -/

namespace Piece

theorem toNat_of_beginsWord {c : Char} (h : beginsWord c = true) :
    65 ≤ c.toNat ∧ c.toNat ≤ 90 ∨ c.toNat = 95 ∨ 97 ≤ c.toNat ∧ c.toNat ≤ 122 := by
  simp only [beginsWord, Bool.or_eq_true, Bool.and_eq_true, decide_eq_true_eq, beq_iff_eq] at h
  rcases h with (h | h) | rfl
  · exact .inr (.inr h)
  · exact .inl h
  · exact .inr (.inl rfl)

theorem toNat_of_isDigit {c : Char} (h : isDigit c = true) : 48 ≤ c.toNat ∧ c.toNat ≤ 57 := by
  simp only [isDigit, Bool.and_eq_true, decide_eq_true_eq] at h
  exact h

theorem isDigit_of_beginsWord {c : Char} (h : beginsWord c = true) : isDigit c = false := by
  refine Bool.eq_false_iff.mpr fun hd => ?_
  have hw := toNat_of_beginsWord h
  have hd := toNat_of_isDigit hd
  omega

/-- A character of a word or a number is no white space, and it opens no string. -/
theorem of_beginsWord_or_isDigit {c : Char} (h : beginsWord c = true ∨ isDigit c = true) :
    Text.isBlank c = false ∧ opensString c = false := by
  have hn : 48 ≤ c.toNat ∧ c.toNat ≤ 122 := by
    rcases h with h | h
    · have := toNat_of_beginsWord h
      omega
    · have := toNat_of_isDigit h
      omega
  constructor
  · simp [Text.isBlank]
    omega
  · refine Bool.eq_false_iff.mpr fun hs => ?_
    rcases (by simpa [opensString] using hs : c = '\'' ∨ c = '´') with rfl | rfl
    · exact absurd hn (by decide)
    · exact absurd hn (by decide)

/-- The marks of one and of two characters are those that are looked for, and each of two begins
with one of one. -/
theorem operatorMarks_agree : (operatorMarks.all fun mark => match mark with
    | ([c], kind) => singleMark? c = some kind
    | ([c, d], kind) => doubleMark? c d = some kind && (singleMark? c).isSome
    | _ => false) = true := by
  decide

/-- No operator begins with a character that begins something else. -/
theorem head_of_mem_operatorMarks : ∀ mark ∈ operatorMarks, ∀ c ∈ mark.1.head?,
    beginsWord c = false ∧ isDigit c = false ∧ Text.isBlank c = false ∧ opensString c = false := by
  have hfirst : ∀ mark ∈ operatorMarks, mark.1.head?.all (fun c => !beginsWord c && !isDigit c &&
      !Text.isBlank c && !opensString c) = true := by decide
  intro mark hm c hc
  simpa [Option.mem_def.mp hc, and_assoc] using hfirst mark hm

end Piece

namespace Spells
open Piece
variable {kind : TokenKind} {text : String} {c : Char} {cs rest : List Char}

theorem ne_nil (h : Spells kind text cs) : cs ≠ [] := by
  rintro rfl
  generalize hcs : ([] : List Char) = cs at h
  cases h with
  | reserved h | name h =>
    obtain ⟨c, rest, h, -⟩ := h.1
    rw [← hcs] at h
    cases h
  | integer h => exact h.1 hcs.symm
  | real => simp at hcs
  | mark h =>
    subst hcs
    revert h
    simp [operatorMarks]

theorem exists_eq_cons (h : Spells kind text cs) (hp : cs <+: c :: rest) :
    ∃ more, cs = c :: more := by
  rcases List.prefix_cons_iff.mp hp with rfl | ⟨more, rfl, -⟩
  · exact absurd rfl h.ne_nil
  · exact ⟨more, rfl⟩

/-- What begins with a letter is a word, what begins with a digit is a number, and all else is an
operator. -/
theorem cases_head (h : Spells kind text (c :: cs)) :
    beginsWord c = true ∧ IsWord (c :: cs) ∨
    isDigit c = true ∧ (IsDigits (c :: cs) ∨ ∃ whole fraction, IsDigits whole ∧
      IsDigits fraction ∧ c :: cs = whole ++ '.' :: fraction) ∨
    beginsWord c = false ∧ isDigit c = false ∧ (c :: cs, kind) ∈ operatorMarks := by
  generalize hcs : c :: cs = all at h
  cases h with
  | reserved h | name h =>
    left
    obtain ⟨d, rest, hd, hbegins⟩ := h.1
    obtain ⟨rfl, -⟩ := List.cons.inj (hcs.trans hd)
    exact ⟨hbegins, h⟩
  | integer h =>
    right; left
    exact ⟨h.2 c (by simp [← hcs]), .inl h⟩
  | @real whole fraction hw hf =>
    right; left
    refine ⟨?_, .inr ⟨whole, fraction, hw, hf, rfl⟩⟩
    cases whole with
    | nil => exact absurd rfl hw.1
    | cons d more =>
      obtain ⟨rfl, -⟩ := List.cons.inj hcs
      exact hw.2 c (by simp)
  | mark h =>
    right; right
    obtain ⟨hw, hd, -⟩ := head_of_mem_operatorMarks _ h c (by simp [← hcs])
    exact ⟨hw, hd, h⟩

/-- A lexeme begins with no white space, and not as a string. -/
theorem head_cases (h : Spells kind text (c :: cs)) :
    Text.isBlank c = false ∧ opensString c = false := by
  rcases h.cases_head with ⟨hc, -⟩ | ⟨hc, -⟩ | ⟨-, -, hm⟩
  · exact of_beginsWord_or_isDigit (.inl hc)
  · exact of_beginsWord_or_isDigit (.inr hc)
  · exact (head_of_mem_operatorMarks _ hm c (by simp)).2.2

theorem ne_stringLiteral (h : Spells kind text cs) : kind ≠ .stringLiteral := by
  have hmark : ∀ mark ∈ operatorMarks, mark.2 ≠ .stringLiteral := by decide
  cases h with
  | mark hm => exact hmark _ hm
  | reserved | name | integer | real => exact TokenKind.noConfusion

/-- No lexeme has white space in it. -/
theorem not_mem_of_isBlank (h : Spells kind text cs) (hc : Text.isBlank c = true) : c ∉ cs := by
  have hmark : ∀ mark ∈ operatorMarks, ∀ d ∈ mark.1, Text.isBlank d = false := by decide
  have hne : ∀ {d : Char}, beginsWord d = true ∨ isDigit d = true → c ≠ d := by
    rintro d hd rfl
    rw [(of_beginsWord_or_isDigit hd).1] at hc
    cases hc
  intro hmem
  cases h with
  | reserved hw | name hw =>
    have hcontinues := hw.2 c hmem
    rw [continuesWord, Bool.or_eq_true] at hcontinues
    exact hne hcontinues rfl
  | integer hd => exact hne (.inr (hd.2 c hmem)) rfl
  | real hwhole hfraction =>
    rcases List.mem_append.mp hmem with hin | hin
    · exact hne (.inr (hwhole.2 c hin)) rfl
    · rcases List.mem_cons.mp hin with rfl | hin
      · exact absurd hc (by decide)
      · exact hne (.inr (hfraction.2 c hin)) rfl
  | mark hm =>
    rw [hmark _ hm c hmem] at hc
    cases hc

end Spells

theorem length_le_takeWhile {p : Char → Bool} {cs text : List Char} (h : cs <+: text)
    (hp : ∀ c ∈ cs, p c = true) : cs.length ≤ (text.takeWhile p).length := by
  obtain ⟨rest, rfl⟩ := h
  rw [List.takeWhile_append_of_pos hp, List.length_append]
  omega

namespace Piece
variable {c : Char} {rest : List Char}

theorem isLongest_word (h : beginsWord c = true) :
    IsLongest ((c :: rest).takeWhile continuesWord) (c :: rest) := by
  intro kind' text' cs' hs hp
  obtain ⟨more, rfl⟩ := hs.exists_eq_cons hp
  rcases hs.cases_head with ⟨-, hw⟩ | ⟨hd, -⟩ | ⟨hw, -⟩
  · exact length_le_takeWhile hp hw.2
  · simp [isDigit_of_beginsWord h] at hd
  · simp [h] at hw

/-- What is cut off as a word is the longest one. -/
theorem isSegment_word (h : beginsWord c = true) (hcomment : ¬ OpensComment (c :: rest)) :
    IsSegment (word (c :: rest)).1.kind (word (c :: rest)).1.source (word (c :: rest)).2 := by
  have happ : (word (c :: rest)).1.source ++ (word (c :: rest)).2 = c :: rest := word_append _
  have hcs : IsWord (word (c :: rest)).1.source := by
    refine ⟨⟨c, rest.takeWhile continuesWord, ?_, h⟩, ?_⟩
    · simp [word, continuesWord, h]
    · exact List.all_eq_true.mp List.all_takeWhile
  have hlexeme : ∃ kind text, (word (c :: rest)).1.kind = .lexeme kind text ∧
      Spells kind text (word (c :: rest)).1.source := by
    simp only [word]
    split
    next reserved hr =>
      have ht := Keyword.text_of_ofText? hr
      exact ⟨_, _, rfl, ht ▸ .reserved hcs ht⟩
    next hr =>
      refine ⟨_, _, rfl, .name hcs fun reserved ht => ?_⟩
      have hfalse := List.find?_eq_none.mp hr reserved (Keyword.mem_all reserved)
      exact hfalse (by simpa using ht)
  obtain ⟨kind, text, hkind, hs⟩ := hlexeme
  rw [hkind]
  exact .lexeme hs (by rw [happ]; exact isLongest_word h) (by rwa [happ])

/-- A number with a point in front of a text has all digits in front of the point. -/
theorem of_real_prefix {whole fraction text : List Char} (hw : IsDigits whole)
    (hp : whole ++ '.' :: fraction <+: text) :
    text.takeWhile isDigit = whole ∧ '.' :: fraction <+: text.dropWhile isDigit := by
  obtain ⟨more, rfl⟩ := hp
  rw [List.append_assoc, List.takeWhile_append_of_pos hw.2, List.dropWhile_append_of_pos hw.2]
  exact ⟨by simp [isDigit], more, by simp [isDigit]⟩

/-- What is cut off as a number is the longest one. -/
theorem isSegment_number (h : isDigit c = true) (hcomment : ¬ OpensComment (c :: rest)) :
    IsSegment (number (c :: rest)).1.kind (number (c :: rest)).1.source (number (c :: rest)).2 := by
  have happ := number_append (c :: rest)
  have hwhole : IsDigits ((c :: rest).takeWhile isDigit) :=
    ⟨by simp [h], List.all_eq_true.mp List.all_takeWhile⟩
  -- Every number that begins here consists of the digits in front, or goes on with a point.
  have hcases : ∀ kind' text' cs', Spells kind' text' cs' → cs' <+: c :: rest →
      cs'.length ≤ ((c :: rest).takeWhile isDigit).length ∨
      ∃ fraction, IsDigits fraction ∧ '.' :: fraction <+: (c :: rest).dropWhile isDigit ∧
        cs' = (c :: rest).takeWhile isDigit ++ '.' :: fraction := by
    intro kind' text' cs' hs hp
    obtain ⟨more, rfl⟩ := hs.exists_eq_cons hp
    rcases hs.cases_head with ⟨hw, -⟩ | ⟨-, hi | ⟨whole, fraction, hw, hf, hcs⟩⟩ | ⟨-, hd, -⟩
    · simp [isDigit_of_beginsWord hw] at h
    · exact .inl (length_le_takeWhile hp hi.2)
    · rw [hcs] at hp
      obtain ⟨hwhole, hrest⟩ := of_real_prefix hw hp
      exact .inr ⟨fraction, hf, hrest, by rw [hwhole, hcs]⟩
    · simp [h] at hd
  have hlexeme : IsLongest (number (c :: rest)).1.source (c :: rest) ∧
      ∃ kind text, (number (c :: rest)).1.kind = .lexeme kind text ∧
        Spells kind text (number (c :: rest)).1.source := by
    unfold number
    split
    next d more hdrop =>
      rw [hdrop] at hcases
      split
      next hd =>
        have hfraction : IsDigits ((d :: more).takeWhile isDigit) :=
          ⟨by simp [hd], List.all_eq_true.mp List.all_takeWhile⟩
        refine ⟨fun kind' text' cs' hs hp => ?_, _, _, rfl, .real hwhole hfraction⟩
        rcases hcases kind' text' cs' hs hp with hle | ⟨fraction, hf, hpoint, rfl⟩
        · simp only [List.length_append]
          omega
        · have hle := length_le_takeWhile (List.cons_prefix_cons.mp hpoint).2 hf.2
          simp only [List.length_append, List.length_cons] at hle ⊢
          omega
      next hd =>
        refine ⟨fun kind' text' cs' hs hp => ?_, _, _, rfl, .integer hwhole⟩
        rcases hcases kind' text' cs' hs hp with hle | ⟨fraction, hf, hpoint, -⟩
        · exact hle
        · -- The point is followed by no digit, but the fraction is in front of what follows it.
          obtain ⟨after, hafter⟩ := (List.cons_prefix_cons.mp hpoint).2
          cases fraction with
          | nil => exact absurd rfl hf.1
          | cons e es =>
            obtain ⟨rfl, -⟩ := List.cons.inj hafter
            exact absurd (hf.2 e (by simp)) hd
    next hno =>
      refine ⟨fun kind' text' cs' hs hp => ?_, _, _, rfl, .integer hwhole⟩
      rcases hcases kind' text' cs' hs hp with hle | ⟨fraction, hf, ⟨after, hafter⟩, -⟩
      · exact hle
      · cases fraction with
        | nil => exact absurd rfl hf.1
        | cons e es => exact absurd hafter.symm (hno e (es ++ after))
  obtain ⟨hlongest, kind, text, hkind, hs⟩ := hlexeme
  rw [hkind]
  exact .lexeme hs (by rwa [happ]) (by rwa [happ])

theorem singleMark?_of_mem {kind : TokenKind} (h : ([c], kind) ∈ operatorMarks) :
    singleMark? c = some kind := by
  simpa using List.all_eq_true.mp operatorMarks_agree _ h

theorem doubleMark?_of_mem {d : Char} {kind : TokenKind} (h : ([c, d], kind) ∈ operatorMarks) :
    doubleMark? c d = some kind ∧ (singleMark? c).isSome := by
  simpa using List.all_eq_true.mp operatorMarks_agree _ h

theorem mem_of_singleMark? {kind : TokenKind} (h : singleMark? c = some kind) :
    ([c], kind) ∈ operatorMarks := by
  unfold singleMark? at h
  split at h <;> cases h <;> decide

theorem mem_of_doubleMark? {d : Char} {kind : TokenKind} (h : doubleMark? c d = some kind) :
    ([c, d], kind) ∈ operatorMarks := by
  unfold doubleMark? at h
  split at h <;> cases h <;> decide

/-- An operator has one character or two. -/
theorem eq_of_mem_operatorMarks {cs : List Char} {kind : TokenKind}
    (h : (c :: cs, kind) ∈ operatorMarks) : cs = [] ∨ ∃ d, cs = [d] := by
  have hmark := List.all_eq_true.mp operatorMarks_agree _ h
  match cs with
  | [] => exact .inl rfl
  | [d] => exact .inr ⟨d, rfl⟩
  | _ :: _ :: _ => cases hmark

/-- What is cut off where no word and no number begins is the longest operator, or a character that
begins nothing. -/
theorem isSegment_mark (hw : beginsWord c = false) (hd : isDigit c = false)
    (hblank : Text.isBlank c = false) (hstring : opensString c = false)
    (hcomment : ¬ OpensComment (c :: rest)) :
    IsSegment (mark c rest).1.kind (mark c rest).1.source (mark c rest).2 := by
  have hmark : ∀ kind text cs, Spells kind text cs → cs <+: c :: rest →
      ∃ more, cs = c :: more ∧ (c :: more, kind) ∈ operatorMarks := by
    intro kind text cs hs hp
    obtain ⟨more, rfl⟩ := hs.exists_eq_cons hp
    rcases hs.cases_head with ⟨h, -⟩ | ⟨h, -⟩ | ⟨-, -, hm⟩
    · simp [hw] at h
    · simp [hd] at h
    · exact ⟨more, rfl, hm⟩
  -- A single character is an operator if no operator of two is there, or it begins nothing.
  have hsingle : (∀ d, [c, d] <+: c :: rest → doubleMark? c d = none) →
      IsSegment (single c).kind (single c).source rest := by
    intro hno
    unfold single
    split
    next kind hkind =>
      refine .lexeme (.mark (mem_of_singleMark? hkind)) (fun kind' text' cs' hs hp => ?_) hcomment
      obtain ⟨more, rfl, hm⟩ := hmark kind' text' cs' hs hp
      rcases eq_of_mem_operatorMarks hm with rfl | ⟨d, rfl⟩
      · simp
      · have hdouble := (doubleMark?_of_mem hm).1
        rw [hno d hp] at hdouble
        cases hdouble
    next hnone =>
      refine .unrecognized hblank hcomment hstring fun kind' text' cs' hs hp => ?_
      obtain ⟨more, rfl, hm⟩ := hmark kind' text' cs' hs hp
      rcases eq_of_mem_operatorMarks hm with rfl | ⟨d, rfl⟩
      · simp [singleMark?_of_mem hm] at hnone
      · have hhead := (doubleMark?_of_mem hm).2
        simp [hnone] at hhead
  unfold mark
  split
  · exact hsingle fun d hp => by simp at hp
  next d more =>
    split
    next kind hkind =>
      refine .lexeme (.mark (mem_of_doubleMark? hkind)) (fun kind' text' cs' hs hp => ?_) hcomment
      obtain ⟨more, rfl, hm⟩ := hmark kind' text' cs' hs hp
      rcases eq_of_mem_operatorMarks hm with rfl | ⟨d, rfl⟩
      · simp
      · simp
    next hnone =>
      refine hsingle fun e hp => ?_
      obtain ⟨rfl, -⟩ := List.cons_prefix_cons.mp (List.cons_prefix_cons.mp hp).2
      exact hnone

/-- **The first piece of a text is a segment in front of the rest.** -/
theorem isSegment_first (c : Char) (rest : List Char) :
    IsSegment (first c rest).1.kind (first c rest).1.source (first c rest).2 := by
  unfold first
  split
  next hblank => exact .blank hblank
  next hblank =>
    split
    next cut hcut => exact .comment (isComment_of_comment? hcut)
    next hnone =>
      have hcomment := not_opensComment hnone
      split
      next hstring => exact .string (isString_stringBody hstring rest)
      next hstring =>
        split
        next hd => exact isSegment_number hd hcomment
        next hd =>
          split
          next hw => exact isSegment_word hw hcomment
          next hw =>
            exact isSegment_mark (by simpa using hw) (by simpa using hd) (by simpa using hblank)
              (by simpa using hstring) hcomment

theorem isSegment_of_mem_split {cs : List Char} {piece : Piece} (h : piece ∈ split cs) :
    ∃ rest, IsSegment piece.kind piece.source rest := by
  fun_induction split cs with
  | case1 => cases h
  | case2 c rest ih =>
    rcases List.mem_cons.mp h with rfl | hrest
    · exact ⟨_, isSegment_first c rest⟩
    · exact ih hrest

end Piece
end PascalCheck
