import PascalCheck.Text.Lines

/-! # The lines of a file

Lines that are joined by line breaks of one kind are read back line by line: what ends a line
becomes a newline, and the text is split at the newlines. -/
namespace PascalCheck
namespace Text

/-- Neither a newline nor a carriage return is in the text. -/
def IsOneLine (cs : List Char) : Prop :=
  ∀ c ∈ cs, c ≠ '\n' ∧ c ≠ '\r'

instance (cs : List Char) : Decidable (IsOneLine cs) :=
  List.decidableBAll (fun c => c ≠ '\n' ∧ c ≠ '\r') cs

/-- What ends the lines of a file: newlines, carriage returns, or both together. -/
def lineBreaks : List (List Char) :=
  [['\n'], ['\r'], ['\r', '\n']]

theorem splitAt_eq_splitOn (separator : Char) (cs : List Char) :
    splitAt separator cs = cs.splitOn separator := by
  induction cs with
  | nil => rfl
  | cons c rest ih =>
    rw [splitAt, ih]
    simp only [List.splitOn, List.splitOnP_cons_eq_if_modifyHead]
    cases hsplit : rest.splitOnP (· == separator) with
    | nil => exact absurd hsplit (List.splitOnP_ne_nil _ _)
    | cons stretch more => simp only [List.modifyHead_cons, beq_iff_eq]

theorem isOneLine_append {cs ds : List Char} :
    IsOneLine (cs ++ ds) ↔ IsOneLine cs ∧ IsOneLine ds :=
  List.forall_mem_append

section
variable {line rest : List Char} {lines : List (List Char)}

theorem foldNewlines_cons {c : Char} (hc : c ≠ '\r') :
    foldNewlines (c :: rest) = c :: foldNewlines rest := by
  rw [foldNewlines]
  · intro rest' h
    exact absurd h hc
  · exact hc

theorem foldNewlines_line (hline : IsOneLine line) :
    foldNewlines (line ++ rest) = line ++ foldNewlines rest := by
  induction line with
  | nil => rfl
  | cons c line ih =>
    obtain ⟨hc, hline⟩ := List.forall_mem_cons.mp hline
    rw [List.cons_append, foldNewlines_cons hc.2, ih hline, List.cons_append]

/-- A line break becomes a newline, unless it is a carriage return in front of a newline. -/
theorem foldNewlines_lineBreak {ending : List Char} (hending : ending ∈ lineBreaks)
    (hrest : ending = ['\r'] → rest.head? ≠ some '\n') :
    foldNewlines (ending ++ rest) = '\n' :: foldNewlines rest := by
  simp only [lineBreaks, List.mem_cons, List.not_mem_nil, or_false] at hending
  rcases hending with rfl | rfl | rfl
  · exact foldNewlines_cons (by decide)
  · cases rest with
    | nil => rfl
    | cons c rest =>
      have hc : c ≠ '\n' := by simpa using hrest rfl
      rw [List.singleton_append, foldNewlines]
      · intro rest' h
        exact hc (List.cons.inj h).1
  · rfl

theorem newline_not_mem_intercalate (hlines : ∀ line ∈ lines, IsOneLine line) :
    '\n' ∉ List.intercalate ['\r'] lines := by
  induction lines with
  | nil => simp
  | cons line rest ih =>
    obtain ⟨hline, hrest⟩ := List.forall_mem_cons.mp hlines
    have hnot : '\n' ∉ line := fun hmem => (hline _ hmem).1 rfl
    cases rest with
    | nil => simpa using hnot
    | cons next rest =>
      rw [List.intercalate_cons_cons]
      simp [hnot, ih hrest]

theorem foldNewlines_intercalate {ending : List Char} (hending : ending ∈ lineBreaks)
    (hlines : ∀ line ∈ lines, IsOneLine line) :
    foldNewlines (ending.intercalate lines) = List.intercalate ['\n'] lines := by
  induction lines with
  | nil => rfl
  | cons line rest ih =>
    obtain ⟨hline, hrest⟩ := List.forall_mem_cons.mp hlines
    cases rest with
    | nil =>
      have hfold : foldNewlines (line ++ []) = line ++ foldNewlines [] := foldNewlines_line hline
      rw [foldNewlines] at hfold
      simpa using hfold
    | cons next rest =>
      rw [List.intercalate_cons_cons, List.intercalate_cons_cons, List.append_assoc,
        foldNewlines_line hline, foldNewlines_lineBreak hending, ih hrest, List.append_assoc,
        List.singleton_append]
      rintro rfl hhead
      exact newline_not_mem_intercalate hrest (List.mem_of_mem_head? hhead)

/-- **Lines are read back**, whatever ends them. -/
theorem splitLines_foldNewlines {ending : List Char} (hending : ending ∈ lineBreaks)
    (hlines : ∀ line ∈ lines, IsOneLine line) (hne : lines ≠ []) :
    splitLines (foldNewlines (ending.intercalate lines)) = lines := by
  rw [foldNewlines_intercalate hending hlines, splitLines, splitAt_eq_splitOn,
    List.splitOn_intercalate '\n' _ hne]
  intro line hline hmem
  exact (hlines line hline '\n' hmem).1 rfl

end
end Text
end PascalCheck
