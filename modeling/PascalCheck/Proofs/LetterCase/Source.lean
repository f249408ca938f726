import PascalCheck.Proofs.LetterCase.Pieces
import PascalCheck.Proofs.LetterCase.Tree
import PascalCheck.Proofs.Token.Partition

/-! # Sources that differ in letter case

Two sources that differ in the case of ASCII letters only, and not inside strings, have the same
tokens up to the case of names. -/
namespace PascalCheck

namespace PieceKind

/-- The piece is a string. -/
def isString : PieceKind → Bool
  | .lexeme .stringLiteral _ => true
  | _ => false

/-- The kind with a name in lower case. -/
def foldName : PieceKind → PieceKind
  | .lexeme .stringLiteral text => .lexeme .stringLiteral text
  | kind => kind.toLower

@[simp] theorem isString_toLower (kind : PieceKind) : kind.toLower.isString = kind.isString := by
  unfold toLower
  split <;> rfl

/-- Outside of strings, folding names is the same as lowering the text. -/
theorem foldName_of_isString {kind : PieceKind} (h : kind.isString = false) :
    kind.foldName = kind.toLower := by
  unfold foldName
  split
  · cases h
  · rfl

theorem exists_text_of_isString {kind : PieceKind} (h : kind.isString = true) :
    ∃ text, kind = .lexeme .stringLiteral text := by
  unfold isString at h
  split at h
  · exact ⟨_, rfl⟩
  · cases h

end PieceKind

/-- The sources are the same up to the case of ASCII letters, and inside the strings of the first
one they are the same. -/
structure SameButCase (a b : String) : Prop where
  letters : a.toLower = b.toLower
  strings : ∀ p ∈ Piece.placed .first (Piece.split a.toList), p.piece.kind.isString = true →
    ∀ i < p.piece.source.length, a.toList[p.place.offset + i]? = b.toList[p.place.offset + i]?

namespace Diagnostic

/-- The diagnostic with its message in ASCII lower case. -/
def foldMessage (d : Diagnostic) : Diagnostic :=
  { d with message := d.message.toLower }

end Diagnostic

/-! ## Places -/

namespace Place

/-- The places behind a text do not depend on the case of its letters. -/
@[simp] theorem pastAll_map_toLower (place : Place) (cs : List Char) :
    place.pastAll (cs.map Char.toLower) = place.pastAll cs := by
  induction cs generalizing place with
  | nil => rfl
  | cons c rest ih =>
    have hc : place.past c.toLower = place.past c := by
      simp only [past, Piece.toLower_eq_iff (d := '\n') rfl]
    simp [hc, ih]

theorem offset_pastAll (place : Place) (cs : List Char) :
    (place.pastAll cs).offset = place.offset + cs.length := by
  induction cs generalizing place with
  | nil => rfl
  | cons c rest ih =>
    have hc : (place.past c).offset = place.offset + 1 := by
      unfold past
      split <;> rfl
    rw [pastAll_cons, ih, hc, List.length_cons]
    omega

end Place

namespace PlacedPiece

/-- The piece in lower case, at its place. -/
def toLower (p : PlacedPiece) : PlacedPiece :=
  ⟨p.place, p.piece.toLower⟩

/-- The piece with a name in lower case. -/
def foldName (p : PlacedPiece) : PlacedPiece :=
  ⟨p.place, ⟨p.piece.kind.foldName, p.piece.source.map Char.toLower⟩⟩

end PlacedPiece

namespace Piece

theorem placed_map_toLower (place : Place) (pieces : List Piece) :
    placed place (pieces.map toLower) = (placed place pieces).map PlacedPiece.toLower := by
  induction pieces generalizing place with
  | nil => rfl
  | cons piece rest ih =>
    have hnext : place.pastAll piece.toLower.source = place.pastAll piece.source :=
      Place.pastAll_map_toLower place piece.source
    simp only [List.map_cons, placed, hnext, ih]
    rfl

/-- A piece stands in the text at its place. -/
theorem slice_of_mem_placed {place : Place} {pieces : List Piece} {p : PlacedPiece}
    (h : p ∈ placed place pieces) : p.piece ∈ pieces ∧ ∃ before after,
      pieces.flatMap source = before ++ p.piece.source ++ after ∧
      p.place.offset = place.offset + before.length := by
  induction pieces generalizing place with
  | nil => cases h
  | cons piece rest ih =>
    rcases List.mem_cons.mp h with rfl | hrest
    · exact ⟨List.mem_cons_self, [], rest.flatMap source, rfl, rfl⟩
    · obtain ⟨hmem, before, after, hsource, hoffset⟩ := ih hrest
      refine ⟨List.mem_cons_of_mem _ hmem, piece.source ++ before, after, ?_, ?_⟩
      · simp [hsource]
      · rw [hoffset, Place.offset_pastAll, List.length_append, Nat.add_assoc]

/-- The characters of a piece are those of the text from its place on. -/
theorem getElem?_of_mem_placed {cs : List Char} {p : PlacedPiece}
    (h : p ∈ placed .first (split cs)) {i : Nat} (hi : i < p.piece.source.length) :
    cs[p.place.offset + i]? = p.piece.source[i]? := by
  obtain ⟨-, before, after, hsource, hoffset⟩ := slice_of_mem_placed h
  rw [flatMap_split] at hsource
  have hlength : p.place.offset + i = before.length + i := by simp [hoffset, Place.first]
  rw [hlength, hsource, List.append_assoc, List.getElem?_append_right (by omega),
    Nat.add_sub_cancel_left, List.getElem?_append_left hi]

/-- What a string says is determined by its characters. -/
theorem stringText_of_isSegment {text : String} {cs rest : List Char}
    (h : IsSegment (.lexeme .stringLiteral text) cs rest) :
    ∃ delimiter body, cs = delimiter :: body ∧
      text = String.ofList (stringBody delimiter body).meaning := by
  cases h with
  | @string delimiter text cs rest h =>
    cases h with
    | closed =>
      refine ⟨delimiter, doubled delimiter text ++ [delimiter], rfl, ?_⟩
      rw [stringBody_closed text (by simp)]
    | unclosed =>
      refine ⟨delimiter, doubled delimiter text, rfl, ?_⟩
      rw [stringBody_unclosed]
  | lexeme h => exact absurd rfl h.ne_stringLiteral

end Piece

/-! ## Tokens and diagnostics -/

/-- Lists that agree under one function agree under another that the first one determines on
them. -/
theorem map_eq_map_of {α β γ : Type} {f : α → β} {g : α → γ} {as bs : List α}
    (h : as.map f = bs.map f) (hg : ∀ a ∈ as, ∀ b ∈ bs, f a = f b → g a = g b) :
    as.map g = bs.map g := by
  induction as generalizing bs with
  | nil => rw [List.map_eq_nil_iff.mp h.symm]
  | cons a as ih =>
    obtain ⟨b, bs, rfl, hb, hbs⟩ := List.map_eq_cons_iff.mp h.symm
    rw [List.map_cons, List.map_cons, hg a (by simp) b (by simp) hb.symm,
      ih hbs.symm fun a ha b hb => hg a (by simp [ha]) b (by simp [hb])]

namespace PlacedPiece

/-- Pieces that are the same in lower case are the same up to the case of names, if they are the
same where they are strings. -/
theorem foldName_eq_of_toLower_eq {p q : PlacedPiece} (h : p.toLower = q.toLower)
    (hs : p.piece.kind.isString = true → p.piece.kind = q.piece.kind) :
    p.foldName = q.foldName := by
  obtain ⟨place, kind, source⟩ := p
  obtain ⟨place', kind', source'⟩ := q
  simp only [toLower, Piece.toLower, PlacedPiece.mk.injEq, Piece.mk.injEq] at h
  obtain ⟨rfl, hkind, hsource⟩ := h
  have hfold : kind.foldName = kind'.foldName := by
    cases hstring : kind.isString with
    | true => rw [show kind = kind' from hs hstring]
    | false =>
      have hstring' : kind'.isString = false := by
        rw [← PieceKind.isString_toLower, ← hkind, PieceKind.isString_toLower, hstring]
      rw [PieceKind.foldName_of_isString hstring, PieceKind.foldName_of_isString hstring', hkind]
  simp only [foldName, hfold, hsource]

/-- The token of a piece with its name in lower case. -/
theorem token?_foldName (p : PlacedPiece) : p.foldName.token? = p.token?.map Token.foldName := by
  obtain ⟨place, kind, source⟩ := p
  cases kind with
  | lexeme kind text => cases kind <;> rfl
  | _ => rfl

theorem diagnostic?_foldName (p : PlacedPiece) :
    p.foldName.diagnostic?.map Diagnostic.foldMessage =
      p.diagnostic?.map Diagnostic.foldMessage := by
  obtain ⟨place, kind, source⟩ := p
  cases kind with
  | lexeme kind text => cases kind <;> rfl
  | unrecognized c =>
    have hc : (toString c.toLower).toLower = (toString c).toLower := by
      simp [← String.toList_inj, toString]
    simp [foldName, PieceKind.foldName, PieceKind.toLower, diagnostic?, Diagnostic.foldMessage, hc]
  | _ => rfl

end PlacedPiece

namespace SameButCase
variable {a b : String} (h : SameButCase a b)
include h

/-- The pieces at one place are the same string. -/
theorem kind_eq_of_isString {p q : PlacedPiece}
    (hp : p ∈ Piece.placed .first (Piece.split a.toList))
    (hq : q ∈ Piece.placed .first (Piece.split b.toList)) (hpq : p.toLower = q.toLower)
    (hs : p.piece.kind.isString = true) : p.piece.kind = q.piece.kind := by
  simp only [PlacedPiece.toLower, Piece.toLower, PlacedPiece.mk.injEq, Piece.mk.injEq] at hpq
  obtain ⟨hplace, hkind, hlower⟩ := hpq
  have hlength : p.piece.source.length = q.piece.source.length := by
    simpa using congrArg List.length hlower
  have hsource : p.piece.source = q.piece.source := by
    refine List.ext_getElem? fun i => ?_
    by_cases hi : i < p.piece.source.length
    · rw [← Piece.getElem?_of_mem_placed hp hi, ← Piece.getElem?_of_mem_placed hq (hlength ▸ hi),
        ← hplace]
      exact h.strings p hp hs i hi
    · rw [List.getElem?_eq_none (by omega), List.getElem?_eq_none (by omega)]
  obtain ⟨text, htext⟩ := PieceKind.exists_text_of_isString hs
  obtain ⟨text', htext'⟩ := PieceKind.exists_text_of_isString
    (by rw [← PieceKind.isString_toLower, ← hkind, PieceKind.isString_toLower, hs])
  obtain ⟨rest, hsegment⟩ := Piece.isSegment_of_mem_split (Piece.slice_of_mem_placed hp).1
  obtain ⟨rest', hsegment'⟩ := Piece.isSegment_of_mem_split (Piece.slice_of_mem_placed hq).1
  rw [htext] at hsegment
  rw [htext', ← hsource] at hsegment'
  obtain ⟨delimiter, body, hcs, rfl⟩ := Piece.stringText_of_isSegment hsegment
  obtain ⟨delimiter', body', hcs', rfl⟩ := Piece.stringText_of_isSegment hsegment'
  obtain ⟨rfl, rfl⟩ := List.cons.inj (hcs.symm.trans hcs')
  rw [htext, htext']

/-- **The two sources have the same pieces at the same places**, up to the case of names. -/
theorem placed_foldName :
    (Piece.placed .first (Piece.split a.toList)).map PlacedPiece.foldName =
      (Piece.placed .first (Piece.split b.toList)).map PlacedPiece.foldName := by
  have hlower : (Piece.placed .first (Piece.split a.toList)).map PlacedPiece.toLower =
      (Piece.placed .first (Piece.split b.toList)).map PlacedPiece.toLower := by
    rw [← Piece.placed_map_toLower, ← Piece.placed_map_toLower, ← Piece.split_map_toLower,
      ← Piece.split_map_toLower, ← Text.toList_toLower, ← Text.toList_toLower, h.letters]
  exact map_eq_map_of hlower fun p hp q hq hpq =>
    PlacedPiece.foldName_eq_of_toLower_eq hpq (h.kind_eq_of_isString hp hq hpq)

theorem finish_eq : Place.first.pastAll a.toList = Place.first.pastAll b.toList := by
  rw [← Place.pastAll_map_toLower, ← Text.toList_toLower, h.letters, Text.toList_toLower,
    Place.pastAll_map_toLower]

/-- **The tokens of two sources are the same up to the case of names.** -/
theorem tokens_foldName :
    (Lexed.ofSource a).tokens.map Token.foldName =
      (Lexed.ofSource b).tokens.map Token.foldName := by
  have hplaced := congrArg (List.filterMap PlacedPiece.token?) h.placed_foldName
  simp only [List.filterMap_map, Function.comp_def, PlacedPiece.token?_foldName] at hplaced
  simp only [Lexed.tokens, Lexed.ofSource, List.map_append, List.map_filterMap, hplaced,
    Lexed.mark, h.finish_eq]

/-- The diagnostics of unrecognized characters are the same up to letter case. -/
theorem diagnostics_foldMessage :
    (Lexed.ofSource a).diagnostics.map Diagnostic.foldMessage =
      (Lexed.ofSource b).diagnostics.map Diagnostic.foldMessage := by
  have hplaced := congrArg (List.filterMap fun p : PlacedPiece =>
    p.diagnostic?.map Diagnostic.foldMessage) h.placed_foldName
  simp only [List.filterMap_map, Function.comp_def, PlacedPiece.diagnostic?_foldName] at hplaced
  simpa only [Lexed.ofSource, List.map_filterMap] using hplaced

end SameButCase
end PascalCheck
