import PascalCheck.Text.Blank
import PascalCheck.Text.Word

/-! # Runs of characters

A run of characters of a class ends where the text that follows does not go on with one of the class
(`Stops`); then it is what `takeWhile` takes and `dropWhile` leaves out.  White space is neither of
word characters nor of digits, so that such runs end at each other. -/
namespace PascalCheck
namespace Text

/-- All of the characters are of the class. -/
abbrev AllOf (p : Char → Bool) (cs : List Char) : Prop :=
  ∀ c ∈ cs, p c = true

/-- The text does not go on with a character of the class. -/
def Stops (p : Char → Bool) (rest : List Char) : Prop :=
  ∀ c ∈ rest.head?, p c = false

section
variable {p : Char → Bool} {c : Char} {cs rest : List Char}

theorem stops_nil : Stops p [] := by
  simp [Stops]

@[simp] theorem stops_cons : Stops p (c :: rest) ↔ p c = false := by
  simp [Stops]

theorem stops_dropWhile (p : Char → Bool) (cs : List Char) : Stops p (cs.dropWhile p) := by
  intro c hc
  have hnot := List.head?_dropWhile_not p cs
  rw [Option.mem_def.mp hc] at hnot
  exact hnot

/-- A run that stops is at once what it is followed by, or goes on with its own characters. -/
theorem Stops.append (hcs : Stops p cs) (hrest : Stops p rest) : Stops p (cs ++ rest) := by
  cases cs with
  | nil => exact hrest
  | cons c cs => exact stops_cons.mpr (stops_cons.mp hcs)

theorem Stops.of_all {q : Char → Bool} (hpq : ∀ c, q c = true → p c = false) (hcs : AllOf q cs) :
    Stops p cs := by
  intro c hc
  exact hpq c (hcs c (List.mem_of_mem_head? hc))

theorem takeWhile_eq_nil (h : Stops p rest) : rest.takeWhile p = [] := by
  cases rest with
  | nil => rfl
  | cons c rest => exact List.takeWhile_cons_of_neg (by simp [stops_cons.mp h])

theorem dropWhile_eq_self (h : Stops p rest) : rest.dropWhile p = rest := by
  cases rest with
  | nil => rfl
  | cons c rest => exact List.dropWhile_cons_of_neg (by simp [stops_cons.mp h])

/-- A run, and what it is followed by. -/
theorem takeWhile_run (hcs : AllOf p cs) (hrest : Stops p rest) :
    (cs ++ rest).takeWhile p = cs := by
  rw [List.takeWhile_append_of_pos hcs, takeWhile_eq_nil hrest, List.append_nil]

theorem dropWhile_run (hcs : AllOf p cs) (hrest : Stops p rest) :
    (cs ++ rest).dropWhile p = rest := by
  rw [List.dropWhile_append_of_pos hcs, dropWhile_eq_self hrest]

theorem allOf_ne (h : c ∉ cs) : AllOf (· != c) cs := by
  intro d hd
  rw [bne_iff_ne]
  rintro rfl
  exact h hd

/-- A text is told by what it is in front of a mark that is not in it. -/
theorem append_mark_inj {mark : Char} {cs' rest' : List Char} (h : mark ∉ cs) (h' : mark ∉ cs')
    (heq : cs ++ mark :: rest = cs' ++ mark :: rest') : cs = cs' ∧ rest = rest' := by
  have hstop (rest : List Char) : Stops (· != mark) (mark :: rest) := by simp
  have hfirst := congrArg (List.takeWhile (· != mark)) heq
  rw [takeWhile_run (allOf_ne h) (hstop _), takeWhile_run (allOf_ne h') (hstop _)] at hfirst
  subst hfirst
  exact ⟨rfl, (List.cons.inj (List.append_cancel_left heq)).2⟩

theorem allOf_takeWhile (p : Char → Bool) (cs : List Char) : AllOf p (cs.takeWhile p) :=
  List.all_eq_true.mp List.all_takeWhile

end

/-- White space goes at both ends, and what lies between characters that are none stays. -/
theorem exists_trim_eq {lead front tail : List Char} {c : Char} (hlead : AllOf isBlank lead)
    (hfront : Stops isBlank (front ++ c :: tail)) (hc : isBlank c = false) :
    ∃ rest, trim (lead ++ front ++ c :: tail) = front ++ c :: rest := by
  have hstart : (lead ++ front ++ c :: tail).dropWhile isBlank = front ++ c :: tail := by
    rw [List.append_assoc]
    exact dropWhile_run hlead hfront
  have hend : (tail.reverse ++ c :: front.reverse).dropWhile isBlank =
      tail.reverse.dropWhile isBlank ++ c :: front.reverse := by
    rw [List.dropWhile_append]
    split
    · rename_i hempty
      rw [List.isEmpty_iff.mp hempty, List.nil_append]
      exact dropWhile_eq_self (stops_cons.mpr hc)
    · rfl
  refine ⟨(tail.reverse.dropWhile isBlank).reverse, ?_⟩
  have hreverse : (front ++ c :: tail).reverse = tail.reverse ++ c :: front.reverse := by simp
  rw [trim, hstart, hreverse, hend]
  simp

theorem trim_blank {cs : List Char} (h : AllOf isBlank cs) : trim cs = [] := by
  have hdrop : cs.dropWhile isBlank = [] := by
    simpa using dropWhile_run h (stops_nil (p := isBlank))
  rw [trim, hdrop]
  rfl

/-! ## Classes -/

section
variable {c : Char}

/-- What is asked of an ASCII character is asked of its code. -/
theorem of_ascii {q : Char → Prop} (h : ∀ code < 0x80, q (Char.ofNat code)) (hc : c.toNat < 0x80) :
    q c := by
  have hcode := h c.toNat hc
  rwa [Char.ofNat_toNat] at hcode

/-- The white space beyond ASCII. -/
def wideBlanks : List Nat :=
  [0x85, 0xa0, 0x1680, 0x2000, 0x2001, 0x2002, 0x2003, 0x2004, 0x2005, 0x2006, 0x2007, 0x2008,
    0x2009, 0x200a, 0x2028, 0x2029, 0x202f, 0x205f, 0x3000]

theorem mem_wideBlanks (h : isBlank c = true) (hc : ¬ c.toNat < 0x80) : c.toNat ∈ wideBlanks := by
  simp only [isBlank, Bool.or_eq_true, Bool.and_eq_true, decide_eq_true_eq, beq_iff_eq] at h
  simp only [wideBlanks, List.mem_cons, List.not_mem_nil, or_false]
  omega

theorem isWordChar_of_isBlank (h : isBlank c = true) : isWordChar c = false := by
  have hwide : ∀ code ∈ wideBlanks, wordRanges.covers code = false := by decide +kernel
  by_cases hc : c.toNat < 0x80
  · exact of_ascii (q := fun c => isBlank c = true → isWordChar c = false) (by decide) hc h
  · rw [isWordChar, if_neg hc]
    exact hwide c.toNat (mem_wideBlanks h hc)

theorem isDecimal_of_isBlank (h : isBlank c = true) : isDecimal c = false := by
  have hwide : ∀ code ∈ wideBlanks,
      decimalRanges.find? (fun range => range.1 ≤ code && code ≤ range.2) = none := by
    decide +kernel
  by_cases hc : c.toNat < 0x80
  · exact of_ascii (q := fun c => isBlank c = true → isDecimal c = false) (by decide) hc h
  · rw [isDecimal, decimalValue?, if_neg hc, hwide c.toNat (mem_wideBlanks h hc)]
    rfl

theorem isBlank_of_isWordChar (h : isWordChar c = true) : isBlank c = false := by
  apply Bool.eq_false_iff.mpr
  intro hblank
  rw [isWordChar_of_isBlank hblank] at h
  cases h

theorem isBlank_of_isDecimal (h : isDecimal c = true) : isBlank c = false := by
  apply Bool.eq_false_iff.mpr
  intro hblank
  rw [isDecimal_of_isBlank hblank] at h
  cases h

end

end Text
end PascalCheck
