import Mathlib.Data.List.Nodup
import PascalCheck.Proofs.Text.Quoting
import PascalCheck.Proofs.Tree.Fitting
import PascalCheck.Proofs.Tree.Layout

/-! # Syntax trees can be read back from their outlines

The outline of a syntax tree is plain (`SyntaxValue.isPlain_outline`), and tells the tree: a part by
its label, and what is in its fields by their names.  What is left out of an outline can be nothing,
or an empty list; the shape of the field says which (`eq_of_isLeftOut`).  So no two syntax trees are
rendered alike (`SyntaxTree.render_outline_inj`). -/
namespace PascalCheck

open Text

/-! ## Numbers -/

namespace Text

/-- The characters of a natural number are digits. -/
theorem isDigit_of_mem_repr {n : Nat} {c : Char} (h : c ∈ n.repr.toList) : c.isDigit = true := by
  rw [Nat.toList_repr] at h
  exact Nat.isDigit_of_mem_toDigits (by decide) (by decide) h

/-- Natural numbers are told by their digits. -/
theorem natural_inj {m n : Nat} (h : m.repr = n.repr) : m = n := by
  have hvalue : ∀ k : Nat, Nat.ofDigitChars 10 k.repr.toList 0 = k := by
    intro k
    rw [Nat.toList_repr, Nat.ofDigitChars_toDigits (by decide) (by decide)]
  rw [← hvalue m, h, hvalue n]

/-- No natural number begins with a sign. -/
theorem signed_ne_repr (text : String) (n : Nat) : "-" ++ text ≠ n.repr := by
  intro h
  have hsign : '-' ∈ n.repr.toList := by
    rw [← h, String.toList_append]
    exact List.mem_append_left _ (List.mem_singleton.mpr rfl)
  cases isDigit_of_mem_repr hsign

/-- Numbers are told by their signs and digits. -/
theorem integer_inj {m n : Int} (h : m.repr = n.repr) : m = n := by
  rw [Int.repr_eq_if, Int.repr_eq_if] at h
  by_cases hm : 0 ≤ m <;> by_cases hn : 0 ≤ n
  · rw [if_pos hm, if_pos hn] at h
    have hsame := natural_inj h
    omega
  · rw [if_pos hm, if_neg hn] at h
    exact absurd h.symm (signed_ne_repr _ _)
  · rw [if_neg hm, if_pos hn] at h
    exact absurd h (signed_ne_repr _ _)
  · rw [if_neg hm, if_neg hn] at h
    have hsame := natural_inj (String.append_right_inj "-" |>.mp h)
    omega

end Text

/-! ## Labels -/

namespace Outline

/-- A character of the name of a part or of a field. -/
def isNameChar (c : Char) : Bool :=
  c.isAlpha || c == '_'

/-- The text names parts or fields. -/
def isName (text : String) : Bool :=
  text.toList.all isNameChar && text != "None"

/-- A character of a label: one of a name, or of a line behind it. -/
def isLabelChar (c : Char) : Bool :=
  isNameChar c || c.isDigit || c == '@' || c == '-'

section Names
variable {name name' : String} {line line' : Int} {c : Char}

theorem isNameChar_of_mem (h : isName name = true) (hc : c ∈ name.toList) :
    isNameChar c = true := by
  rw [isName, Bool.and_eq_true, List.all_eq_true] at h
  exact h.1 c hc

theorem ne_none (h : isName name = true) : name ≠ "None" := by
  rw [isName, Bool.and_eq_true, bne_iff_ne] at h
  exact h.2

theorem at_not_mem (h : isName name = true) : '@' ∉ name.toList := by
  intro hmem
  cases isNameChar_of_mem h hmem

theorem equals_not_mem (h : isName name = true) : '=' ∉ name.toList := by
  intro hmem
  cases isNameChar_of_mem h hmem

theorem toList_labelAt (name : String) (line : Int) :
    (labelAt name line).toList =
      name.toList ++ if line = 0 then [] else '@' :: (toString line).toList := by
  unfold labelAt
  split
  · rw [List.append_nil]
  · change (name ++ "@" ++ toString line).toList = _
    simp

/-- A label tells the name and the line. -/
theorem labelAt_inj (h : '@' ∉ name.toList) (h' : '@' ∉ name'.toList)
    (heq : labelAt name line = labelAt name' line') : name = name' ∧ line = line' := by
  replace heq := congrArg String.toList heq
  rw [toList_labelAt, toList_labelAt] at heq
  by_cases hline : line = 0 <;> by_cases hline' : line' = 0
  · rw [if_pos hline, if_pos hline', List.append_nil, List.append_nil] at heq
    exact ⟨String.ext heq, hline.trans hline'.symm⟩
  · rw [if_pos hline, if_neg hline', List.append_nil] at heq
    exact absurd (heq ▸ by simp) h
  · rw [if_neg hline, if_pos hline', List.append_nil] at heq
    exact absurd (heq ▸ by simp) h'
  · rw [if_neg hline, if_neg hline'] at heq
    obtain ⟨hname, hnumber⟩ := append_mark_inj h h' heq
    exact ⟨String.ext hname, integer_inj (String.ext hnumber)⟩

theorem isLabelChar_of_mem_toString (hc : c ∈ (toString line).toList) : isLabelChar c = true := by
  have hdigit {n : Nat} (hc : c ∈ n.repr.toList) : isLabelChar c = true := by
    simp [isLabelChar, isDigit_of_mem_repr hc]
  rw [Int.toString_eq_repr, Int.repr_eq_if] at hc
  split at hc
  · exact hdigit hc
  · rw [String.toList_append, List.mem_append] at hc
    rcases hc with hc | hc
    · obtain rfl := List.mem_singleton.mp hc
      rfl
    · exact hdigit hc

theorem isLabelChar_of_mem (h : isName name = true) (hc : c ∈ (labelAt name line).toList) :
    isLabelChar c = true := by
  rw [toList_labelAt, List.mem_append] at hc
  rcases hc with hc | hc
  · simp [isLabelChar, isNameChar_of_mem h hc]
  · split at hc
    · cases hc
    · rcases List.mem_cons.mp hc with rfl | hc
      · rfl
      · exact isLabelChar_of_mem_toString hc

theorem isInline_labelAt (h : isName name = true) (line : Int) :
    IsInline (labelAt name line) where
  start := by
    intro c hc
    have hlabel := isLabelChar_of_mem h (List.mem_of_mem_head? hc)
    rw [beq_eq_false_iff_ne]
    rintro rfl
    cases hlabel
  rest := by
    intro c hc
    have hlabel := isLabelChar_of_mem h hc
    constructor <;> rintro rfl <;> cases hlabel

theorem isLeafText_labelAt (h : isName name = true) (line : Int) :
    isLeafText (labelAt name line) = false := by
  have hnone : labelAt name line ≠ "None" := by
    intro heq
    have hzero : labelAt name line = labelAt "None" 0 := heq
    exact ne_none h (labelAt_inj (at_not_mem h) (by decide) hzero).1
  have hequals : '=' ∉ (labelAt name line).toList := by
    intro hmem
    cases isLabelChar_of_mem h hmem
  simp [isLeafText, hnone, hequals]

theorem isInline_name (h : isName name = true) : IsInline name :=
  isInline_labelAt h 0

theorem isLeafText_name (h : isName name = true) : isLeafText name = false :=
  isLeafText_labelAt h 0

end Names
end Outline

open Outline

namespace PartKind

/-- All kinds of parts. -/
def all : List PartKind :=
  [typeSpec, declaredName, varDeclaration, constDeclaration, parameter, writeArgument, varSection,
    constSection, block, function, procedure, program, assignment, ifThen, whileDo, forDo,
    repeatUntil, write, read, call, binary, unary, literal, identifier, functionCall, element,
    placeholder]

theorem mem_all (kind : PartKind) : kind ∈ all := by
  cases kind <;> decide

theorem nodup_labels : (all.map label).Nodup := by
  decide

/-- No two kinds of parts are called the same. -/
theorem label_inj {kind kind' : PartKind} (h : kind.label = kind'.label) : kind = kind' :=
  List.inj_on_of_nodup_map nodup_labels (mem_all kind) (mem_all kind') h

theorem isName_label (kind : PartKind) : isName kind.label = true := by
  cases kind <;> decide

theorem isName_fieldNames (kind : PartKind) : ∀ name ∈ kind.fieldNames, isName name = true := by
  cases kind <;> decide

/-- No two fields of a part have the same name. -/
theorem nodup_fieldNames (kind : PartKind) : kind.fieldNames.Nodup := by
  cases kind <;> decide

end PartKind

/-! ## Fields -/

namespace Outline

/-- The line of a field, or the label above what is in it. -/
def entry (name : String) : Outline → Outline
  | leaf written => leaf s!"{name}={written}"
  | branch label children => branch name [branch label children]

/-- The name of the field that the outline is the entry of. -/
def fieldName : Outline → List Char
  | leaf text => text.toList.takeWhile (· != '=')
  | branch label _ => label.toList

section Entries
variable {name : String}

theorem toList_written (name written : String) :
    (s!"{name}={written}").toList = name.toList ++ '=' :: written.toList := by
  change (name ++ "=" ++ written).toList = _
  simp

theorem fieldName_entry (h : isName name = true) (shown : Outline) :
    (entry name shown).fieldName = name.toList := by
  cases shown with
  | leaf written =>
    rw [entry, fieldName, toList_written]
    exact takeWhile_run (allOf_ne (equals_not_mem h)) (by simp)
  | branch label children => rfl

theorem entry_inj {shown shown' : Outline} (h : entry name shown = entry name shown') :
    shown = shown' := by
  cases shown with
  | leaf written =>
    cases shown' with
    | leaf written' =>
      have hlists := congrArg String.toList (leaf.inj h)
      rw [toList_written, toList_written] at hlists
      rw [String.ext (List.cons.inj (List.append_cancel_left hlists)).2]
    | branch => cases h
  | branch label children =>
    cases shown' with
    | leaf => cases h
    | branch label' children' => exact (List.cons.inj (branch.inj h).2).1

end Entries
end Outline

namespace SyntaxValue

theorem fieldOutline_eq (name : String) (value : SyntaxValue) (shown : Outline) :
    fieldOutline name value shown = if value.isLeftOut then [] else [entry name shown] := by
  cases shown <;> rfl

theorem eq_nothing_or_of_isLeftOut {value : SyntaxValue} (h : value.isLeftOut = true) :
    value = nothing ∨ value = list [] := by
  unfold isLeftOut at h
  split at h
  · exact .inl rfl
  · exact .inr rfl
  · cases h

/-- What is left out is told by the shape of the field. -/
theorem eq_of_isLeftOut {shape : FieldShape} {v w : SyntaxValue} (hv : fits shape v = true)
    (hw : fits shape w = true) (hvout : v.isLeftOut = true) (hwout : w.isLeftOut = true) :
    v = w := by
  rcases eq_nothing_or_of_isLeftOut hvout with rfl | rfl <;>
    rcases eq_nothing_or_of_isLeftOut hwout with rfl | rfl
  · rfl
  · cases shape <;> simp at hv hw
  · cases shape <;> simp at hv hw
  · rfl

theorem fieldName_mem {o : Outline} {names : List String}
    (hnames : ∀ name ∈ names, isName name = true) {values : List SyntaxValue}
    (h : o ∈ fieldOutlines names values) : ∃ name ∈ names, o.fieldName = name.toList := by
  induction names generalizing values with
  | nil => simp [fieldOutlines] at h
  | cons name names ih =>
    rw [List.forall_mem_cons] at hnames
    cases values with
    | nil => simp [fieldOutlines] at h
    | cons value rest =>
      rw [fieldOutlines, fieldOutline_eq, List.mem_append] at h
      rcases h with h | h
      · split at h
        · cases h
        · obtain rfl := List.mem_singleton.mp h
          exact ⟨name, List.mem_cons_self, fieldName_entry hnames.1 _⟩
      · obtain ⟨other, hother, hname⟩ := ih hnames.2 h
        exact ⟨other, List.mem_cons_of_mem _ hother, hname⟩

/-- Whether the first of the fields is left out, and what its entry is, is told by the entries of
all fields. -/
theorem fieldOutline_append_inj {name : String} {shape : FieldShape} {v w : SyntaxValue}
    (hname : isName name = true) (hv : fits shape v = true) (hw : fits shape w = true)
    {rest rest' : List Outline} (hrest : ∀ o ∈ rest, o.fieldName ≠ name.toList)
    (hrest' : ∀ o ∈ rest', o.fieldName ≠ name.toList)
    (h : fieldOutline name v v.outline ++ rest = fieldOutline name w w.outline ++ rest') :
    (v = w ∨ v.outline = w.outline) ∧ rest = rest' := by
  rw [fieldOutline_eq, fieldOutline_eq] at h
  by_cases hvout : v.isLeftOut = true <;> by_cases hwout : w.isLeftOut = true
  · rw [if_pos hvout, if_pos hwout] at h
    exact ⟨.inl (eq_of_isLeftOut hv hw hvout hwout), h⟩
  · rw [if_pos hvout, if_neg hwout, List.nil_append] at h
    subst h
    exact absurd (fieldName_entry hname w.outline) (hrest _ List.mem_cons_self)
  · rw [if_neg hvout, if_pos hwout, List.nil_append] at h
    subst h
    exact absurd (fieldName_entry hname v.outline) (hrest' _ List.mem_cons_self)
  · rw [if_neg hvout, if_neg hwout] at h
    obtain ⟨hentry, hrests⟩ := List.cons.inj h
    exact ⟨.inr (entry_inj hentry), hrests⟩

/-! ## Outlines tell trees -/

theorem quoted_ne {text word : String} (h : Stops (fun c => c == '\'' || c == '"') word.toList) :
    quoted text ≠ word := by
  rintro rfl
  have hquote := h (Quoted.quoteFor text.toList) (by rw [toList_quoted]; rfl)
  rcases Quoted.isQuote_quoteFor text.toList with hq | hq <;> rw [hq] at hquote <;> cases hquote

mutual

/-- **The outline of a value tells the value**, if its shape is known. -/
theorem outline_inj {shape : FieldShape} {v w : SyntaxValue} (hv : fits shape v = true)
    (hw : fits shape w = true) (h : v.outline = w.outline) : v = w := by
  -- Values of one shape are of one kind, unless one of them is missing.
  cases v with
  | nothing =>
    cases w with
    | nothing => rfl
    | text written => exact absurd (leaf.inj h).symm (quoted_ne (by simp))
    | part => cases h
    | _ => cases shape <;> simp at hv hw
  | text written =>
    cases w with
    | nothing => exact absurd (leaf.inj h) (quoted_ne (by simp))
    | text written' => rw [quoted_inj.mp (leaf.inj h)]
    | _ => cases shape <;> simp at hv hw
  | flag value =>
    cases w with
    | flag value' =>
      cases value <;> cases value' <;> simp [outline] at h ⊢
    | _ => cases shape <;> simp at hv hw
  | list items =>
    cases w with
    | list items' =>
      cases shape with
      | parts =>
        simp only [fits] at hv hw
        rw [outlines_inj hv hw (branch.inj h).2]
      | _ => simp at hv
    | _ => cases shape <;> simp at hv hw
  | part kind line fields =>
    cases w with
    | nothing => cases h
    | part kind' line' fields' =>
      cases shape with
      | part =>
        obtain ⟨hlabel, hfields⟩ := branch.inj h
        obtain ⟨hkind, rfl⟩ := labelAt_inj (at_not_mem kind.isName_label)
          (at_not_mem kind'.isName_label) hlabel
        obtain rfl := PartKind.label_inj hkind
        simp only [fits] at hv hw
        rw [fieldOutlines_inj kind.nodup_fieldNames kind.isName_fieldNames hv hw hfields]
      | _ => simp at hv
    | _ => cases shape <;> simp at hv hw

theorem outlines_inj {vs ws : List SyntaxValue} (hv : areParts vs = true) (hw : areParts ws = true)
    (h : outlines vs = outlines ws) : vs = ws := by
  match vs, ws with
  | [], [] => rfl
  | [], w :: ws => simp [outlines] at h
  | v :: vs, [] => simp [outlines] at h
  | v :: vs, w :: ws =>
    rw [areParts, Bool.and_eq_true] at hv hw
    simp only [outlines, List.cons.injEq] at h
    rw [outline_inj hv.1 hw.1 h.1, outlines_inj hv.2 hw.2 h.2]

theorem fieldOutlines_inj {fields : List (String × FieldShape)}
    (hnodup : (fields.map (·.1)).Nodup) (hnames : ∀ name ∈ fields.map (·.1), isName name = true)
    {vs ws : List SyntaxValue} (hv : fitAll (fields.map (·.2)) vs = true)
    (hw : fitAll (fields.map (·.2)) ws = true)
    (h : fieldOutlines (fields.map (·.1)) vs = fieldOutlines (fields.map (·.1)) ws) : vs = ws := by
  match vs, ws, fields with
  | [], [], _ => rfl
  | v :: vs, [], [] => simp at hv
  | v :: vs, [], field :: fields => simp at hw
  | [], w :: ws, [] => simp at hw
  | [], w :: ws, field :: fields => simp at hv
  | v :: vs, w :: ws, [] => simp at hv
  | v :: vs, w :: ws, field :: fields =>
    simp only [List.map_cons, List.nodup_cons, List.forall_mem_cons, fitAll, fieldOutlines,
      Bool.and_eq_true] at hnodup hnames hv hw h
    -- The entries of the other fields have other names, so that the first entry is told from them.
    have hother (values : List SyntaxValue) :
        ∀ o ∈ fieldOutlines (fields.map (·.1)) values, o.fieldName ≠ field.1.toList := by
      intro o ho heq
      obtain ⟨name, hname, hfield⟩ := fieldName_mem hnames.2 ho
      exact hnodup.1 (String.ext (heq.symm.trans hfield) ▸ hname)
    obtain ⟨hfirst, hrest⟩ :=
      fieldOutline_append_inj hnames.1 hv.1 hw.1 (hother vs) (hother ws) h
    rw [fieldOutlines_inj hnodup.2 hnames.2 hv.2 hw.2 hrest]
    rcases hfirst with rfl | houtline
    · rfl
    · rw [outline_inj hv.1 hw.1 houtline]

end

/-! ## Outlines are plain -/

theorem isInline_none : IsInline "None" :=
  ⟨by simp, by simp⟩

/-- The outline is what can be written in a field. -/
def IsShown : Outline → Prop
  | leaf written => ∀ c ∈ written.toList, c ≠ '\n' ∧ c ≠ '\t'
  | branch label children => IsPlain (branch label children)

theorem IsShown.entry {name : String} (hname : isName name = true) {shown : Outline}
    (h : IsShown shown) : IsPlain (entry name shown) := by
  have hinline := isInline_name hname
  cases shown with
  | leaf written =>
    have hlist := toList_written name written
    refine ⟨⟨?_, ?_⟩, ?_⟩
    · rw [hlist]
      exact hinline.start.append (by simp)
    · rw [hlist]
      intro c hc
      rw [List.mem_append, List.mem_cons] at hc
      rcases hc with hc | rfl | hc
      · exact hinline.rest c hc
      · decide
      · exact h c hc
    · simp [isLeafText, hlist]
  | branch label children => exact ⟨hinline, isLeafText_name hname, h, trivial⟩

theorem IsShown.isPlain {value : SyntaxValue} (hfits : fits .part value = true)
    (h : IsShown value.outline) : IsPlain value.outline := by
  cases value with
  | nothing => exact ⟨isInline_none, rfl⟩
  | part kind line fields => exact h
  | _ => simp at hfits

mutual

theorem isShown_outline {shape : FieldShape} {value : SyntaxValue}
    (h : fits shape value = true) : IsShown value.outline := by
  cases value with
  | nothing => exact isInline_none.rest
  | text written => exact forall_mem_quoted
  | flag b => cases b <;> simp [outline, IsShown]
  | list items =>
    cases shape with
    | parts =>
      simp only [fits] at h
      exact ⟨isInline_name (by decide), by decide, allPlain_outlines h⟩
    | _ => simp at h
  | part kind line fields =>
    cases shape with
    | part =>
      simp only [fits] at h
      exact ⟨isInline_labelAt kind.isName_label line, isLeafText_labelAt kind.isName_label line,
        allPlain_fieldOutlines kind.isName_fieldNames h⟩
    | _ => simp at h

theorem allPlain_outlines {values : List SyntaxValue} (h : areParts values = true) :
    AllPlain (outlines values) := by
  match values with
  | [] => trivial
  | value :: rest =>
    rw [areParts, Bool.and_eq_true] at h
    exact ⟨(isShown_outline h.1).isPlain h.1, allPlain_outlines h.2⟩

theorem allPlain_fieldOutlines {names : List String} (hnames : ∀ name ∈ names, isName name = true)
    {shapes : List FieldShape} {values : List SyntaxValue} (h : fitAll shapes values = true) :
    AllPlain (fieldOutlines names values) := by
  match values with
  | [] => cases names <;> trivial
  | value :: rest =>
    cases names with
    | nil => trivial
    | cons name names =>
      cases shapes with
      | nil => simp at h
      | cons shape shapes =>
        rw [List.forall_mem_cons] at hnames
        rw [fitAll, Bool.and_eq_true] at h
        rw [fieldOutlines, fieldOutline_eq]
        have hrest := allPlain_fieldOutlines hnames.2 h.2
        split
        · exact hrest
        · exact ⟨(isShown_outline h.1).entry hnames.1, hrest⟩

end

theorem isPlain_outline {value : SyntaxValue} (h : fits .part value = true) :
    IsPlain value.outline :=
  (isShown_outline h).isPlain h

end SyntaxValue

/-! ## Renderings -/

/-- Syntax trees that are rendered alike are the same. -/
theorem SyntaxTree.render_outline_inj {t t' : SyntaxTree} :
    t.value.outline.render = t'.value.outline.render ↔ t = t' := by
  rw [render_inj (SyntaxValue.isPlain_outline t.fits) (SyntaxValue.isPlain_outline t'.fits),
    ← SyntaxTree.value_inj]
  exact ⟨SyntaxValue.outline_inj t.fits t'.fits, congrArg SyntaxValue.outline⟩

/-- A declaration or a statement as a syntax tree. -/
def Node.toTree (node : Node) : SyntaxTree where
  value := node.toValue
  fits := node.fits_toValue

theorem Node.render_outline_inj {node node' : Node} :
    node.outline.render = node'.outline.render ↔ node = node' := by
  have htree : node.toTree = node'.toTree ↔ node = node' := by
    rw [← SyntaxTree.value_inj]
    exact ⟨Node.toValue_inj, congrArg Node.toValue⟩
  rw [← htree, ← SyntaxTree.render_outline_inj]
  rfl

theorem Program.toNode_inj {p q : Program} : p.toNode = q.toNode ↔ p = q := by
  cases p
  cases q
  simp [toNode]

/-- **A syntax tree can be read back from what is rendered**, whatever its texts hold and whatever
it lacks: two trees with the same rendering are the same.  So are two nodes and two programs, and
what is rendered of these is what is rendered of their trees. -/
theorem SyntaxTree.unambiguous :
    (∀ t t' : SyntaxTree, t.value.outline.render = t'.value.outline.render ↔ t = t') ∧
      (∀ node node' : Node, node.outline.render = node'.outline.render ↔ node = node') ∧
      (∀ p q : Program, p.outline.render = q.outline.render ↔ p = q) ∧
      ∀ node : Node, node.outline = node.toTree.value.outline := by
  refine ⟨?_, ?_, ?_, ?_⟩
  · intro t t'
    exact render_outline_inj
  · intro node node'
    exact Node.render_outline_inj
  · intro p q
    rw [← Program.toNode_inj]
    exact Node.render_outline_inj
  · intro node
    rfl

end PascalCheck
