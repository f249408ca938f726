import PascalCheck.Proofs.Token.Cutting

/-! # The partition of a source text

A text falls into segments in one way only: the piece that is cut off it is the only segment with
which it begins (`first_of_isSegment`), so the pieces of the text are the only partition of it
(`partition_iff_split`).  The places of the pieces are counted from what is in front of them, and
the tokens and diagnostics of a source are read off the pieces one by one. -/
namespace PascalCheck

/-! ## One way to begin -/

/-- A comment begins with no character that begins something else than an operator. -/
theorem OpensComment.head {c : Char} {rest : List Char} (h : OpensComment (c :: rest)) :
    Text.isBlank c = false ∧ Piece.opensString c = false ∧ Piece.beginsWord c = false ∧
      Piece.isDigit c = false := by
  simp only [OpensComment, lineOpener, CommentMarks.all, List.mem_cons, List.not_mem_nil, or_false,
    exists_eq_or_imp, exists_eq_left, List.cons_prefix_cons] at h
  rcases h with ⟨rfl, -⟩ | ⟨rfl, -⟩ | ⟨rfl, -⟩ | ⟨rfl, -⟩ <;> decide

theorem isBlank_of_opensString {c : Char} (h : Piece.opensString c = true) :
    Text.isBlank c = false := by
  rcases (by simpa [Piece.opensString] using h : c = '\'' ∨ c = '´') with rfl | rfl <;> decide

theorem IsComment.opensComment {cs rest : List Char} (h : IsComment cs rest) :
    OpensComment (cs ++ rest) := by
  cases h with
  | @closed marks body rest h _ =>
    exact .inr ⟨marks, h, body ++ marks.closer ++ rest, by simp⟩
  | @unclosed marks body h _ => exact .inr ⟨marks, h, body, by simp⟩
  | @line body rest _ _ => exact .inl ⟨body ++ rest, by simp⟩

namespace Piece

/-- Up to the first closer is up to any closer that is first. -/
theorem through_of_first {closer body rest : List Char} (hc : closer ≠ [])
    (hfirst : ∀ before after, body ++ closer ++ rest = before ++ closer ++ after →
      body.length ≤ before.length) :
    through closer (body ++ closer ++ rest) = (body ++ closer, rest) := by
  have happ := through_append closer (body ++ closer ++ rest)
  rcases through_cases hc (body ++ closer ++ rest) with ⟨body', hbody', hfirst'⟩ | ⟨-, hno⟩
  · -- Neither of the two bodies is longer than the other.
    have hle := hfirst' body rest rfl
    have hle' := hfirst body' _ (by rw [← hbody', happ])
    have hlength : (body' ++ closer).length = (body ++ closer).length := by
      simp only [List.length_append]
      omega
    rw [hbody'] at happ
    obtain ⟨hfront, hback⟩ := List.append_inj happ hlength
    exact Prod.ext (hbody'.trans hfront) hback
  · exact absurd rfl (hno body rest)

theorem through_of_none {closer cs : List Char} (hc : closer ≠ [])
    (hno : ∀ before after, cs ≠ before ++ closer ++ after) : through closer cs = (cs, []) := by
  have happ := through_append closer cs
  rcases through_cases hc cs with ⟨body, hbody, -⟩ | ⟨hrest, -⟩
  · refine absurd ?_ (hno body (through closer cs).2)
    rw [← hbody, happ]
  · rw [hrest, List.append_nil] at happ
    exact Prod.ext happ hrest

/-- Behind an opener, a comment is cut off up to its closer. -/
theorem comment?_opener {marks : CommentMarks} (h : marks ∈ CommentMarks.all) (cs : List Char) :
    comment? (marks.opener ++ cs) =
      some (marks.opener ++ (through marks.closer cs).1, (through marks.closer cs).2) := by
  simp only [CommentMarks.all, List.mem_cons, List.not_mem_nil, or_false] at h
  rcases h with rfl | rfl | rfl <;> simp [comment?]

/-- A comment in front of a text is what is cut off it. -/
theorem comment?_of_isComment {cs rest : List Char} (h : IsComment cs rest) :
    comment? (cs ++ rest) = some (cs, rest) := by
  cases h with
  | closed h hfirst =>
    rw [List.append_assoc, List.append_assoc, comment?_opener h, ← List.append_assoc,
      through_of_first (CommentMarks.closer_ne_nil _ h) hfirst, List.append_assoc]
  | unclosed h hno =>
    rw [List.append_nil, comment?_opener h, through_of_none (CommentMarks.closer_ne_nil _ h) hno]
  | @line body rest hbody hend =>
    have hall : ∀ c ∈ body, (c != '\n') = true := fun c hc => by
      simpa using fun heq : c = '\n' => hbody (heq ▸ hc)
    show some ('/' :: '/' :: (body ++ rest).takeWhile (· != '\n'), (body ++ rest).dropWhile
      (· != '\n')) = _
    rw [List.takeWhile_append_of_pos hall, List.dropWhile_append_of_pos hall]
    rcases hend with rfl | hend
    · simp [lineOpener]
    · cases rest with
      | nil => cases hend
      | cons c more =>
        obtain rfl := Option.some.inj hend
        simp [lineOpener]

theorem comment?_of_not_opensComment {cs : List Char} (h : ¬ OpensComment cs) :
    comment? cs = none := by
  cases hcut : comment? cs with
  | none => rfl
  | some cut =>
    have hopens := (isComment_of_comment? hcut).opensComment
    rw [(comment?_append hcut).1] at hopens
    exact absurd hopens h

/-- A text in which the delimiter is doubled, and its delimiter, are cut off as a string. -/
theorem stringBody_closed {delimiter : Char} (text : List Char) {rest : List Char}
    (hend : rest.head? ≠ some delimiter) :
    stringBody delimiter (doubled delimiter text ++ delimiter :: rest) =
      ⟨doubled delimiter text ++ [delimiter], text, rest⟩ := by
  induction text with
  | nil =>
    cases rest with
    | nil => simp [stringBody]
    | cons d more => simp [stringBody, show d ≠ delimiter by simpa using hend]
  | cons c text ih =>
    by_cases hc : c = delimiter
    · subst hc
      simp [doubled_cons, stringBody, ih]
    · rw [doubled_cons, if_neg hc, List.append_assoc, List.singleton_append]
      -- A character behind it decides how the string is read on, and there is one.
      cases hmore : doubled delimiter text ++ delimiter :: rest with
      | nil => simp at hmore
      | cons d more =>
        rw [hmore] at ih
        simp [stringBody, hc, ih]

theorem stringBody_unclosed {delimiter : Char} (text : List Char) :
    stringBody delimiter (doubled delimiter text) = ⟨doubled delimiter text, text, []⟩ := by
  induction text with
  | nil => rfl
  | cons c text ih =>
    by_cases hc : c = delimiter
    · subst hc
      simp [doubled_cons, stringBody, ih]
    · rw [doubled_cons, if_neg hc, List.singleton_append]
      cases hmore : doubled delimiter text with
      | nil =>
        rw [hmore] at ih
        have htext : text = [] := by simpa [stringBody] using (congrArg StringBody.meaning ih).symm
        simp [stringBody, hc, htext]
      | cons d more =>
        rw [hmore] at ih
        simp [stringBody, hc, ih]

end Piece

namespace Keyword

theorem ofText?_text (word : Keyword) : ofText? word.text = some word := by
  cases word <;> rfl

theorem text_injective {word word' : Keyword} (h : word.text = word'.text) : word = word' := by
  have hsome := congrArg ofText? h
  rw [ofText?_text, ofText?_text] at hsome
  exact Option.some.inj hsome

end Keyword

theorem takeWhile_eq_self {p : Char → Bool} {cs : List Char} (h : ∀ c ∈ cs, p c = true) :
    cs.takeWhile p = cs ∧ cs.dropWhile p = [] := by
  constructor
  · simpa using @List.takeWhile_append_of_pos _ p cs [] h
  · simpa using @List.dropWhile_append_of_pos _ p cs [] h

namespace Piece

/-- A number with a point is cut off whole. -/
theorem number_real {whole fraction : List Char} (hw : IsDigits whole) (hf : IsDigits fraction) :
    number (whole ++ '.' :: fraction) =
      (⟨.lexeme .realLiteral (String.ofList (whole ++ '.' :: fraction)),
        whole ++ '.' :: fraction⟩, []) := by
  have htake : (whole ++ '.' :: fraction).takeWhile isDigit = whole := by
    rw [List.takeWhile_append_of_pos hw.2, List.takeWhile_cons_of_neg (by decide), List.append_nil]
  have hdrop : (whole ++ '.' :: fraction).dropWhile isDigit = '.' :: fraction := by
    rw [List.dropWhile_append_of_pos hw.2, List.dropWhile_cons_of_neg (by decide)]
  obtain ⟨hall, hnone⟩ := takeWhile_eq_self hf.2
  cases fraction with
  | nil => exact absurd rfl hf.1
  | cons d more =>
    have hd := hf.2 d (by simp)
    simp only [number, htake, hdrop, hd, if_true, hall, hnone]

/-- A lexeme by itself is cut off whole: its characters tell the kind and the text of its token. -/
theorem first_of_spells {kind : TokenKind} {text : String} {c : Char} {cs : List Char}
    (h : Spells kind text (c :: cs)) : first c cs = (⟨.lexeme kind text, c :: cs⟩, []) := by
  obtain ⟨hblank, hstring⟩ := h.head_cases
  have hcomment : comment? (c :: cs) = none := by
    rcases h.cases_head with ⟨hw, -⟩ | ⟨hd, -⟩ | ⟨-, -, hm⟩
    · exact comment?_of_not_opensComment fun ho => by simp [ho.head.2.2.1] at hw
    · exact comment?_of_not_opensComment fun ho => by simp [ho.head.2.2.2] at hd
    · have hmarks : ∀ mark ∈ operatorMarks, comment? mark.1 = none := by decide
      exact hmarks _ hm
  have hfirst : first c cs = if isDigit c then number (c :: cs) else
      if beginsWord c then word (c :: cs) else mark c cs := by
    rw [first, if_neg (by simp [hblank]), hcomment]
    exact if_neg (by simp [hstring])
  rw [hfirst]
  generalize hall : c :: cs = all at h ⊢
  cases h with
  | reserved hw hword =>
    obtain ⟨d, rest, hd, hbegins⟩ := hw.1
    obtain ⟨rfl, -⟩ := List.cons.inj (hall.trans hd)
    obtain ⟨htake, hdrop⟩ := takeWhile_eq_self hw.2
    simp [isDigit_of_beginsWord hbegins, hbegins, word, htake, hdrop, ← hword,
      Keyword.ofText?_text]
  | name hw hno =>
    obtain ⟨d, rest, hd, hbegins⟩ := hw.1
    obtain ⟨rfl, -⟩ := List.cons.inj (hall.trans hd)
    obtain ⟨htake, hdrop⟩ := takeWhile_eq_self hw.2
    have hnone : Keyword.ofText? (Text.lower (String.ofList all)) = none :=
      List.find?_eq_none.mpr fun word _ => by simpa using hno word
    simp [isDigit_of_beginsWord hbegins, hbegins, word, htake, hdrop, hnone]
  | integer hd =>
    obtain ⟨htake, hdrop⟩ := takeWhile_eq_self hd.2
    simp [hd.2 c (by simp [← hall]), number, htake, hdrop]
  | @real whole fraction hw hf =>
    cases whole with
    | nil => exact absurd rfl hw.1
    | cons d more =>
      obtain ⟨rfl, -⟩ := List.cons.inj hall
      rw [if_pos (hw.2 c (by simp)), number_real hw hf]
  | mark hm =>
    obtain ⟨hw, hd, -⟩ := head_of_mem_operatorMarks _ hm c (by simp [← hall])
    subst hall
    rw [if_neg (by simp [hd]), if_neg (by simp [hw])]
    rcases eq_of_mem_operatorMarks hm with rfl | ⟨d, rfl⟩
    · simp [mark, single, singleMark?_of_mem hm]
    · simp [mark, (doubleMark?_of_mem hm).1]

/-- A text that begins with no white space, comment or string begins with one segment only. -/
theorem first_of_plain {c : Char} {more cs rest : List Char} {kind : PieceKind}
    (hblank : Text.isBlank c = false) (hcomment : ¬ OpensComment (c :: more))
    (hstring : opensString c = false) (h : IsSegment kind cs rest)
    (htext : cs ++ rest = c :: more) : first c more = (⟨kind, cs⟩, rest) := by
  -- What a segment can be in such a text: the longest lexeme, or a character that begins none.
  have hplain : ∀ {kind cs rest}, IsSegment kind cs rest → cs ++ rest = c :: more →
      (∃ token text, kind = .lexeme token text ∧ Spells token text cs ∧ cs <+: c :: more ∧
        IsLongest cs (c :: more)) ∨
      kind = .unrecognized c ∧ cs = [c] ∧
        ∀ token text cs', Spells token text cs' → ¬ cs' <+: c :: more := by
    intro kind cs rest hs ht
    cases hs with
    | blank hb =>
      obtain ⟨rfl, -⟩ := List.cons.inj ht
      simp [hblank] at hb
    | comment hc => exact absurd (ht ▸ hc.opensComment) hcomment
    | string hs =>
      cases hs with
      | closed h _ | unclosed h =>
        obtain ⟨rfl, -⟩ := List.cons.inj ht
        simp [hstring] at h
    | lexeme hs hlongest _ =>
      exact .inl ⟨_, _, rfl, hs, ⟨rest, ht⟩, by rwa [ht] at hlongest⟩
    | unrecognized _ _ _ hlexeme =>
      obtain ⟨rfl, rfl⟩ := List.cons.inj ht
      exact .inr ⟨rfl, rfl, hlexeme⟩
  have hfirst := isSegment_first c more
  have happ := first_append c more
  generalize first c more = cut at hfirst happ ⊢
  obtain ⟨⟨kind', cs'⟩, rest'⟩ := cut
  have hsame : kind' = kind ∧ cs' = cs := by
    rcases hplain h htext, hplain hfirst happ with
      ⟨⟨token, text, rfl, hs, hp, hl⟩ | ⟨rfl, rfl, hno⟩,
        ⟨token', text', rfl, hs', hp', hl'⟩ | ⟨rfl, rfl, hno'⟩⟩
    · -- Each of the two is the longest one, and the same characters spell the same token.
      have hle : cs' <+: cs := List.prefix_of_prefix_length_le hp' hp (hl _ _ _ hs' hp')
      obtain rfl : cs' = cs := hle.eq_of_length_le (hl' _ _ _ hs hp)
      obtain ⟨after, rfl⟩ := hs.exists_eq_cons hp
      have hpiece := (first_of_spells hs').symm.trans (first_of_spells hs)
      simp only [Prod.mk.injEq, Piece.mk.injEq, and_true] at hpiece
      exact ⟨hpiece, rfl⟩
    · exact absurd hp (hno' _ _ _ hs)
    · exact absurd hp' (hno _ _ _ hs')
    · exact ⟨rfl, rfl⟩
  obtain ⟨rfl, rfl⟩ := hsame
  have hrest : rest' = rest := List.append_cancel_left (happ.trans htext.symm)
  rw [hrest]

/-- **The piece that is cut off a text is the only segment with which it begins.** -/
theorem first_of_isSegment {kind : PieceKind} {cs rest : List Char} {c : Char} {more : List Char}
    (h : IsSegment kind cs rest) (htext : cs ++ rest = c :: more) :
    first c more = (⟨kind, cs⟩, rest) := by
  cases hsegment : h with
  | blank hblank =>
    obtain ⟨rfl, rfl⟩ := List.cons.inj htext
    simp [first, hblank]
  | comment hc =>
    have hcut := comment?_of_isComment hc
    have hopens := hc.opensComment
    rw [htext] at hcut hopens
    rw [first, if_neg (by simp [hopens.head.1]), hcut]
  | @string delimiter text _ _ hs =>
    have hbody : ∃ source, cs = delimiter :: source ∧ opensString delimiter = true ∧
        stringBody delimiter (source ++ rest) = ⟨source, text, rest⟩ := by
      cases hs with
      | closed ho hend => exact ⟨_, rfl, ho, by simpa using stringBody_closed text hend⟩
      | unclosed ho => exact ⟨_, rfl, ho, by simpa using stringBody_unclosed text⟩
    obtain ⟨source, rfl, hopens, hsource⟩ := hbody
    obtain ⟨rfl, rfl⟩ := List.cons.inj htext
    have hcomment : comment? (delimiter :: (source ++ rest)) = none :=
      comment?_of_not_opensComment fun ho => by simp [ho.head.2.1] at hopens
    rw [List.append_eq, first, if_neg (by simp [isBlank_of_opensString hopens]), hcomment]
    simp [hopens, hsource]
  | lexeme hs hlongest hcomment =>
    obtain ⟨after, rfl⟩ := hs.exists_eq_cons ⟨rest, htext⟩
    rw [htext] at hcomment
    exact first_of_plain hs.head_cases.1 hcomment hs.head_cases.2 h htext
  | unrecognized hblank hcomment hstring _ =>
    obtain ⟨rfl, rfl⟩ := List.cons.inj htext
    exact first_of_plain hblank hcomment hstring h htext

/-! ## The only partition -/

theorem ne_nil_of_isSegment {kind : PieceKind} {cs rest : List Char} (h : IsSegment kind cs rest) :
    cs ≠ [] := by
  have hopener : ∀ marks ∈ CommentMarks.all, marks.opener ≠ [] := by decide
  cases h with
  | blank | unrecognized => simp
  | comment hc =>
    cases hc with
    | closed hm | unclosed hm => simp [hopener _ hm]
    | line => simp [lineOpener]
  | string hs => cases hs <;> simp
  | lexeme hs => exact hs.ne_nil

theorem partition_split (cs : List Char) : Partition (split cs) cs := by
  fun_induction split cs with
  | case1 => exact .nil
  | case2 c rest ih =>
    have hcons := Partition.cons (isSegment_first c rest) ih
    rwa [first_append] at hcons

/-- **The pieces of a text are the only partition of it into segments.** -/
theorem partition_iff_split {pieces : List Piece} {cs : List Char} :
    Partition pieces cs ↔ pieces = split cs := by
  constructor
  · intro h
    induction h with
    | nil => rw [split]
    | @cons piece pieces rest h _ ih =>
      obtain ⟨c, more, htext⟩ := List.exists_cons_of_ne_nil
        (List.append_ne_nil_of_left_ne_nil (ne_nil_of_isSegment h) rest)
      rw [htext, split, first_of_isSegment h htext, ih]
  · rintro rfl
    exact partition_split cs

/-! ## Places -/

end Piece

namespace Place

/-- The place that is reached over a text lies behind it. -/
theorem pastAll_first (before : List Char) : first.pastAll before = behind before := by
  induction h : before.reverse generalizing before with
  | nil => simp_all [first, behind]
  | cons c rest ih =>
    obtain rfl : before = rest.reverse ++ [c] := by simpa using congrArg List.reverse h
    rw [pastAll_append, ih rest.reverse (by simp)]
    by_cases hc : c = '\n'
    · simp [past, behind, hc]
      omega
    · simp [past, behind, hc]
      omega

end Place

namespace Piece

theorem source_ne_nil_of_partition {pieces : List Piece} {cs : List Char}
    (h : Partition pieces cs) : ∀ piece ∈ pieces, piece.source ≠ [] := by
  induction h with
  | nil => simp
  | cons h _ ih => simpa using ⟨ne_nil_of_isSegment h, ih⟩

end Piece

end PascalCheck
