import Mathlib.Tactic.ByContra
import PascalCheck.Proofs.Text.Runs
import PascalCheck.Tree.Outline

/-! # Outlines can be read back from their lines

The depth of a line is told by the spaces in front of it, and what follows them tells a leaf from a
branch, if the texts of the leaves and the labels of the branches can be told apart and neither
begin with a space nor hold newlines or tabs (`Outline.IsPlain`).  The lines of a plain outline then
say where it ends, whatever lines of a lower depth follow (`linesAt_append_inj`), so that no two of
them are rendered alike (`render_inj`). -/
namespace PascalCheck

namespace Text

theorem toList_joinLines (lines : List String) :
    (joinLines lines).toList = lines.flatMap fun line => line.toList ++ ['\n'] := by
  simp [joinLines, List.flatMap_map]

/-- **Lines can be read back** if there is no newline in any of them. -/
theorem joinLines_inj {lines lines' : List String} (hlines : ∀ line ∈ lines, '\n' ∉ line.toList)
    (hlines' : ∀ line ∈ lines', '\n' ∉ line.toList) (h : joinLines lines = joinLines lines') :
    lines = lines' := by
  replace h := congrArg String.toList h
  rw [toList_joinLines, toList_joinLines] at h
  induction lines generalizing lines' with
  | nil =>
    cases lines' with
    | nil => rfl
    | cons line' rest' => simp at h
  | cons line rest ih =>
    cases lines' with
    | nil => simp at h
    | cons line' rest' =>
      rw [List.forall_mem_cons] at hlines hlines'
      simp only [List.flatMap_cons, List.append_assoc, List.singleton_append] at h
      -- A line reaches to the first newline.
      obtain ⟨hline, hrest⟩ := append_mark_inj hlines.1 hlines'.1 h
      rw [String.ext hline, ih hlines.2 hlines'.2 hrest]

end Text

open Text

namespace Outline

/-! ## Plain outlines -/

/-- The text can be the text of a leaf, and cannot be a label. -/
def isLeafText (text : String) : Bool :=
  text == "None" || text.toList.contains '='

/-- The text does not begin with a space, and holds neither newlines nor tabs. -/
structure IsInline (text : String) : Prop where
  start : Stops (· == ' ') text.toList
  rest : ∀ c ∈ text.toList, c ≠ '\n' ∧ c ≠ '\t'

mutual

/-- The texts and labels can be told apart, and where they begin and end on a line. -/
@[simp] def IsPlain : Outline → Prop
  | leaf text => IsInline text ∧ isLeafText text = true
  | branch label children => IsInline label ∧ isLeafText label = false ∧ AllPlain children

@[simp] def AllPlain : List Outline → Prop
  | [] => True
  | o :: rest => IsPlain o ∧ AllPlain rest

end

/-- A branch is laid out on one line if its only child is a leaf. -/
def IsSingle (children : List Outline) : Prop :=
  ∃ text, children = [leaf text]

theorem linesAt_branch {children : List Outline} (h : ¬ IsSingle children) (depth : Nat)
    (label : String) :
    linesAt depth (branch label children) =
      (indent depth ++ label) :: allLinesAt (depth + 1) children := by
  rw [linesAt]
  intro text htext
  exact h ⟨text, htext⟩

/-- What stands on the first line of an outline behind the spaces. -/
def heading : Outline → String
  | leaf text => text
  | branch label [leaf text] => label ++ "\t" ++ text
  | branch label _ => label

theorem heading_branch {children : List Outline} (h : ¬ IsSingle children) (label : String) :
    heading (branch label children) = label := by
  rw [heading]
  intro text htext
  exact h ⟨text, htext⟩

theorem linesAt_single (depth : Nat) (label text : String) :
    linesAt depth (branch label [leaf text]) =
      [indent depth ++ heading (branch label [leaf text])] := by
  simp only [linesAt, heading, String.append_assoc]

/-- The lines of an outline behind the first one. -/
theorem exists_linesAt_eq (depth : Nat) (o : Outline) :
    ∃ more, linesAt depth o = (indent depth ++ o.heading) :: more := by
  cases o with
  | leaf text => exact ⟨[], rfl⟩
  | branch label children =>
    by_cases hsingle : IsSingle children
    · obtain ⟨text, rfl⟩ := hsingle
      exact ⟨[], linesAt_single depth label text⟩
    · rw [linesAt_branch hsingle, heading_branch hsingle]
      exact ⟨_, rfl⟩

section Plain

variable {o o' : Outline} {text text' label label' : String} {children children' : List Outline}

theorem IsInline.tab_not_mem (h : IsInline text) : '\t' ∉ text.toList :=
  fun hmem => (h.rest _ hmem).2 rfl

theorem toList_heading_single :
    (heading (branch label [leaf text])).toList = label.toList ++ '\t' :: text.toList := by
  simp [heading]

/-- A tab stands on the line of a single leaf alone. -/
theorem tab_mem_heading (h : IsPlain (branch label children)) :
    '\t' ∈ (heading (branch label children)).toList ↔ IsSingle children := by
  constructor
  · intro htab
    by_contra hsingle
    rw [heading_branch hsingle] at htab
    exact h.1.tab_not_mem htab
  · rintro ⟨text, rfl⟩
    simp [toList_heading_single]

theorem stops_heading (h : IsPlain o) : Stops (· == ' ') o.heading.toList := by
  cases o with
  | leaf text => exact h.1.start
  | branch label children =>
    by_cases hsingle : IsSingle children
    · obtain ⟨text, rfl⟩ := hsingle
      rw [toList_heading_single]
      exact h.1.start.append (by simp)
    · rw [heading_branch hsingle]
      exact h.1.start

/-- A leaf shares its line with no branch. -/
theorem heading_leaf_ne (h : IsPlain (leaf text)) (h' : IsPlain (branch label children)) :
    heading (leaf text) ≠ heading (branch label children) := by
  intro heq
  by_cases hsingle : IsSingle children
  · have htab := (tab_mem_heading h').mpr hsingle
    rw [← heq] at htab
    exact h.1.tab_not_mem htab
  · rw [heading_branch hsingle] at heq
    have hleaf : isLeafText text = true := h.2
    rw [show text = label from heq, h'.2.1] at hleaf
    cases hleaf

/-- The line of a branch tells its label, and its children if they are on that line. -/
theorem heading_branch_inj (h : IsPlain (branch label children))
    (h' : IsPlain (branch label' children'))
    (heq : heading (branch label children) = heading (branch label' children')) :
    label = label' ∧ (IsSingle children ↔ IsSingle children') ∧
      (IsSingle children → children = children') := by
  have hiff : IsSingle children ↔ IsSingle children' := by
    rw [← tab_mem_heading h, ← tab_mem_heading h', heq]
  by_cases hsingle : IsSingle children
  · obtain ⟨text', htext'⟩ := hiff.mp hsingle
    obtain ⟨text, htext⟩ := hsingle
    subst htext htext'
    have hlists := congrArg String.toList heq
    rw [toList_heading_single, toList_heading_single] at hlists
    -- The label reaches to the tab.
    obtain ⟨hlabel, htext⟩ := append_mark_inj h.1.tab_not_mem h'.1.tab_not_mem hlists
    rw [String.ext hlabel, String.ext htext]
    exact ⟨rfl, Iff.rfl, fun _ => rfl⟩
  · rw [heading_branch hsingle, heading_branch (hiff.not.mp hsingle)] at heq
    exact ⟨heq, hiff, fun hs => absurd hs hsingle⟩

end Plain

/-! ## Depth -/

/-- The number of spaces in front of a line. -/
def margin (line : String) : Nat :=
  (line.toList.takeWhile (· == ' ')).length

theorem margin_indent {text : String} (h : Stops (· == ' ') text.toList) (depth : Nat) :
    margin (indent depth ++ text) = 2 * depth := by
  have hspaces : AllOf (· == ' ') (List.replicate (2 * depth) ' ') := by
    intro c hc
    simp [List.eq_of_mem_replicate hc]
  rw [margin, indent, String.toList_append, String.toList_ofList, takeWhile_run hspaces h,
    List.length_replicate]

/-- The lines go on above a depth, if they go on. -/
def EndsAt (depth : Nat) (rest : List String) : Prop :=
  ∀ line ∈ rest.head?, margin line < 2 * depth

theorem EndsAt.succ {depth : Nat} {rest : List String} (h : EndsAt depth rest) :
    EndsAt (depth + 1) rest := by
  intro line hline
  have := h line hline
  omega

/-- Behind an outline come others at its depth, or the lines end at that depth. -/
theorem EndsAt.allLinesAt {depth : Nat} {rest : List String} (h : EndsAt depth rest)
    {outlines : List Outline} (hplain : AllPlain outlines) :
    EndsAt (depth + 1) (allLinesAt depth outlines ++ rest) := by
  cases outlines with
  | nil => exact h.succ
  | cons o more =>
    obtain ⟨lines, hlines⟩ := exists_linesAt_eq depth o
    intro line hline
    rw [Outline.allLinesAt, hlines, List.cons_append, List.cons_append, List.head?_cons] at hline
    obtain rfl := Option.some.inj hline
    rw [margin_indent (stops_heading hplain.1)]
    omega

/-- Lines that end at a depth are not those of an outline at that depth. -/
theorem EndsAt.ne_linesAt {depth : Nat} {rest more : List String} (h : EndsAt depth rest)
    {o : Outline} (hplain : IsPlain o) : rest ≠ linesAt depth o ++ more := by
  rintro rfl
  obtain ⟨lines, hlines⟩ := exists_linesAt_eq depth o
  have := h (indent depth ++ o.heading) (by rw [hlines]; rfl)
  rw [margin_indent (stops_heading hplain)] at this
  exact Nat.lt_irrefl _ this

/-! ## Reading back -/

theorem heading_eq_of_append {depth : Nat} {o o' : Outline} {rest rest' : List String}
    (h : linesAt depth o ++ rest = linesAt depth o' ++ rest') : o.heading = o'.heading := by
  obtain ⟨lines, hlines⟩ := exists_linesAt_eq depth o
  obtain ⟨lines', hlines'⟩ := exists_linesAt_eq depth o'
  rw [hlines, hlines'] at h
  have hfirst := congrArg String.toList (List.cons.inj h).1
  rw [String.toList_append, String.toList_append] at hfirst
  exact String.ext (List.append_cancel_left hfirst)

mutual

/-- **The lines of a plain outline tell the outline and where it ends.** -/
theorem linesAt_append_inj (depth : Nat) {o o' : Outline} {rest rest' : List String}
    (ho : IsPlain o) (ho' : IsPlain o') (hrest : EndsAt (depth + 1) rest)
    (hrest' : EndsAt (depth + 1) rest') (h : linesAt depth o ++ rest = linesAt depth o' ++ rest') :
    o = o' ∧ rest = rest' := by
  -- The first lines are the same, so that both are leaves or both are branches.
  have hheading := heading_eq_of_append h
  match o, o' with
  | leaf text, leaf text' =>
    obtain rfl : text = text' := hheading
    exact ⟨rfl, List.append_cancel_left h⟩
  | leaf text, branch label' children' => exact absurd hheading (heading_leaf_ne ho ho')
  | branch label children, leaf text' => exact absurd hheading.symm (heading_leaf_ne ho' ho)
  | branch label children, branch label' children' =>
    obtain ⟨rfl, hiff, heq⟩ := heading_branch_inj ho ho' hheading
    by_cases hsingle : IsSingle children
    · obtain rfl := heq hsingle
      exact ⟨rfl, List.append_cancel_left h⟩
    · -- What follows both goes on above the depth of the children, too.
      rw [linesAt_branch hsingle, linesAt_branch (hiff.not.mp hsingle)] at h
      obtain ⟨rfl, hends⟩ := allLinesAt_append_inj (depth + 1) ho.2.2 ho'.2.2 hrest hrest'
        (List.cons.inj h).2
      exact ⟨rfl, hends⟩

theorem allLinesAt_append_inj (depth : Nat) {outlines outlines' : List Outline}
    {rest rest' : List String} (ho : AllPlain outlines) (ho' : AllPlain outlines')
    (hrest : EndsAt depth rest) (hrest' : EndsAt depth rest')
    (h : allLinesAt depth outlines ++ rest = allLinesAt depth outlines' ++ rest') :
    outlines = outlines' ∧ rest = rest' := by
  match outlines, outlines' with
  | [], [] => exact ⟨rfl, h⟩
  | [], o' :: more' =>
    rw [allLinesAt, allLinesAt, List.append_assoc] at h
    exact absurd h (hrest.ne_linesAt ho'.1)
  | o :: more, [] =>
    rw [allLinesAt, allLinesAt, List.append_assoc] at h
    exact absurd h.symm (hrest'.ne_linesAt ho.1)
  | o :: more, o' :: more' =>
    rw [allLinesAt, allLinesAt, List.append_assoc, List.append_assoc] at h
    obtain ⟨rfl, hmore⟩ := linesAt_append_inj depth ho.1 ho'.1 (hrest.allLinesAt ho.2)
      (hrest'.allLinesAt ho'.2) h
    obtain ⟨rfl, hends⟩ := allLinesAt_append_inj depth ho.2 ho'.2 hrest hrest' hmore
    exact ⟨rfl, hends⟩

end

/-! ## Rendering -/

theorem newline_not_mem_heading {o : Outline} (h : IsPlain o) : '\n' ∉ o.heading.toList := by
  have hinline {text : String} (htext : IsInline text) : '\n' ∉ text.toList :=
    fun hmem => (htext.rest _ hmem).1 rfl
  cases o with
  | leaf text => exact hinline h.1
  | branch label children =>
    by_cases hsingle : IsSingle children
    · obtain ⟨text, rfl⟩ := hsingle
      rw [toList_heading_single, List.mem_append, List.mem_cons]
      rintro (hlabel | htab | htext)
      · exact hinline h.1 hlabel
      · cases htab
      · exact hinline h.2.2.1.1 htext
    · rw [heading_branch hsingle]
      exact hinline h.1

theorem newline_not_mem_first {o : Outline} (h : IsPlain o) (depth : Nat) :
    '\n' ∉ (indent depth ++ o.heading).toList := by
  rw [String.toList_append, List.mem_append, indent, String.toList_ofList]
  rintro (hspace | hheading)
  · cases List.eq_of_mem_replicate hspace
  · exact newline_not_mem_heading h hheading

mutual

/-- A plain outline is laid out line by line. -/
theorem newline_not_mem_linesAt (depth : Nat) {o : Outline} (h : IsPlain o) :
    ∀ line ∈ linesAt depth o, '\n' ∉ line.toList := by
  have hfirst := newline_not_mem_first h depth
  match o with
  | leaf text =>
    intro line hline
    obtain rfl := List.mem_singleton.mp hline
    exact hfirst
  | branch label children =>
    by_cases hsingle : IsSingle children
    · obtain ⟨text, rfl⟩ := hsingle
      rw [linesAt_single]
      intro line hline
      obtain rfl := List.mem_singleton.mp hline
      exact hfirst
    · rw [heading_branch hsingle] at hfirst
      rw [linesAt_branch hsingle, List.forall_mem_cons]
      exact ⟨hfirst, newline_not_mem_allLinesAt (depth + 1) h.2.2⟩

theorem newline_not_mem_allLinesAt (depth : Nat) {outlines : List Outline}
    (h : AllPlain outlines) : ∀ line ∈ allLinesAt depth outlines, '\n' ∉ line.toList := by
  match outlines with
  | [] =>
    intro line hline
    cases hline
  | o :: more =>
    rw [allLinesAt, List.forall_mem_append]
    exact ⟨newline_not_mem_linesAt depth h.1, newline_not_mem_allLinesAt depth h.2⟩

end

/-- **No two plain outlines are rendered alike.** -/
theorem render_inj {o o' : Outline} (ho : IsPlain o) (ho' : IsPlain o') :
    o.render = o'.render ↔ o = o' := by
  constructor
  · intro h
    have hlines := joinLines_inj (newline_not_mem_linesAt 0 ho) (newline_not_mem_linesAt 0 ho') h
    have hends : EndsAt 1 [] := by simp [EndsAt]
    exact (linesAt_append_inj 0 ho ho' hends hends (congrArg (· ++ []) hlines)).1
  · exact congrArg render

end Outline
end PascalCheck
