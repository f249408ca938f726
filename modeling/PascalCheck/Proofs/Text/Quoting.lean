import Mathlib.Algebra.Group.Nat.Defs
import PascalCheck.Text.Quoted

/-! # Quoted text can be read back

Between its quotes each character is written so that it can be told what it is and where it ends
(`Encodes.readChar`).  So no two texts are quoted alike (`quoted_inj`), and whatever the text holds,
its quoted form stays on one line and has no tabs (`forall_mem_quoted`). -/
namespace PascalCheck
namespace Text
namespace Quoted

/-! ## Hexadecimal digits -/

/-- The value of a hexadecimal digit in lower case. -/
def digitValue (c : Char) : Nat :=
  if c.isDigit then c.toNat - '0'.toNat else c.toNat - 'a'.toNat + 10

def number (digits : List Char) : Nat :=
  digits.foldl (fun n c => n * 16 + digitValue c) 0

theorem digitValue_hexDigit : ∀ value < 16, digitValue (hexDigit value) = value := by decide

theorem length_hexDigits (width n : Nat) : (hexDigits width n).length = width := by
  induction width generalizing n with
  | zero => rfl
  | succ width ih => simp [hexDigits, ih]

theorem number_hexDigits (width n : Nat) : number (hexDigits width n) = n % 16 ^ width := by
  induction width generalizing n with
  | zero => simp [hexDigits, number, Nat.mod_one]
  | succ width ih =>
    have hdigit := digitValue_hexDigit (n % 16) (Nat.mod_lt n (by decide))
    rw [hexDigits, number, List.foldl_append, ← number, ih]
    simp only [List.foldl_cons, List.foldl_nil, hdigit]
    rw [Nat.pow_succ, Nat.mul_comm (16 ^ width) 16, Nat.mod_mul]
    omega

theorem mem_hexDigits {width n : Nat} {c : Char} (h : c ∈ hexDigits width n) :
    ∃ value < 16, c = hexDigit value := by
  induction width generalizing n with
  | zero => cases h
  | succ width ih =>
    rcases List.mem_append.mp h with h | h
    · exact ih h
    · exact ⟨n % 16, Nat.mod_lt n (by decide), List.mem_singleton.mp h⟩

theorem hexDigit_ne : ∀ value < 16, hexDigit value ≠ '\n' ∧ hexDigit value ≠ '\t' := by decide

/-! ## Characters -/

/-- The forms in which a character stands between quotes. -/
inductive Encodes (quote : Char) : Char → List Char → Prop where
  | marked {c : Char} (h : c = quote ∨ c = '\\') : Encodes quote c ['\\', c]
  | control {c mark : Char} (h : (c, mark) ∈ [('\n', 'n'), ('\r', 'r'), ('\t', 't')]) :
    Encodes quote c ['\\', mark]
  | plain {c : Char} (h : c ∉ ['\\', '\n', '\t']) : Encodes quote c [c]
  | code {c mark : Char} {width : Nat} (h : (mark, width) ∈ [('x', 2), ('u', 4), ('U', 8)])
    (hwidth : c.toNat < 16 ^ width) :
    Encodes quote c ('\\' :: mark :: hexDigits width c.toNat)

theorem encodes_escape (quote c : Char) : Encodes quote c (escape c) := by
  unfold escape
  split
  next h => exact .code (by simp) h
  next =>
    split
    next h => exact .code (by simp) h
    next => exact .code (by simp) c.val.toNat_lt

theorem encodes_encodeChar (quote c : Char) : Encodes quote c (encodeChar quote c) := by
  unfold encodeChar
  by_cases hmarked : c = quote ∨ c = '\\'
  · rw [if_pos hmarked]
    exact .marked hmarked
  by_cases hn : c = '\n'
  · rw [if_neg hmarked, if_pos hn]
    exact .control (by simp [hn])
  by_cases hr : c = '\r'
  · rw [if_neg hmarked, if_neg hn, if_pos hr]
    exact .control (by simp [hr])
  by_cases ht : c = '\t'
  · rw [if_neg hmarked, if_neg hn, if_neg hr, if_pos ht]
    exact .control (by simp [ht])
  rw [if_neg hmarked, if_neg hn, if_neg hr, if_neg ht]
  split
  · exact .plain (by simp_all)
  · exact encodes_escape quote c

/-- The character of a code of that many digits, and what follows it. -/
def readCode (width : Nat) (cs : List Char) : Char × List Char :=
  (Char.ofNat (number (cs.take width)), cs.drop width)

/-- The character of an escape behind its backslash, and what follows it. -/
def readEscape : List Char → Option (Char × List Char)
  | 'n' :: rest => some ('\n', rest)
  | 'r' :: rest => some ('\r', rest)
  | 't' :: rest => some ('\t', rest)
  | 'x' :: rest => some (readCode 2 rest)
  | 'u' :: rest => some (readCode 4 rest)
  | 'U' :: rest => some (readCode 8 rest)
  | c :: rest => some (c, rest)
  | [] => none

/-- The first character of quoted text, and what follows it. -/
def readChar : List Char → Option (Char × List Char)
  | [] => none
  | c :: rest => if c = '\\' then readEscape rest else some (c, rest)

/-- The quotes that surround texts. -/
def IsQuote (c : Char) : Prop :=
  c = '\'' ∨ c = '"'

theorem isQuote_quoteFor (cs : List Char) : IsQuote (quoteFor cs) := by
  unfold quoteFor
  split
  · exact .inr rfl
  · exact .inl rfl

variable {quote c : Char} {written rest : List Char}

theorem readCode_hexDigits {width : Nat} (h : c.toNat < 16 ^ width) :
    readCode width (hexDigits width c.toNat ++ rest) = (c, rest) := by
  have hlength := length_hexDigits width c.toNat
  unfold readCode
  rw [List.take_left' hlength, List.drop_left' hlength, number_hexDigits, Nat.mod_eq_of_lt h,
    Char.ofNat_toNat]

/-- **A character is read back**, whatever follows. -/
theorem Encodes.readChar (hquote : IsQuote quote) (h : Encodes quote c written) :
    readChar (written ++ rest) = some (c, rest) := by
  cases h with
  | marked h =>
    rcases h with rfl | rfl
    · rcases hquote with rfl | rfl <;> rfl
    · rfl
  | control h =>
    simp only [List.mem_cons, Prod.mk.injEq, List.not_mem_nil, or_false] at h
    rcases h with ⟨rfl, rfl⟩ | ⟨rfl, rfl⟩ | ⟨rfl, rfl⟩ <;> rfl
  | plain h => exact if_neg fun hc => h (by simp [hc])
  | code h hwidth =>
    simp only [List.mem_cons, Prod.mk.injEq, List.not_mem_nil, or_false] at h
    rcases h with ⟨rfl, rfl⟩ | ⟨rfl, rfl⟩ | ⟨rfl, rfl⟩ <;>
      exact congrArg some (readCode_hexDigits hwidth)

/-- What a character is written with is neither a newline nor a tab. -/
theorem Encodes.forall_mem (hquote : IsQuote quote) (h : Encodes quote c written) :
    ∀ d ∈ written, d ≠ '\n' ∧ d ≠ '\t' := by
  cases h with
  | marked h =>
    rcases h with rfl | rfl
    · rcases hquote with rfl | rfl <;> simp
    · simp
  | control h =>
    simp only [List.mem_cons, Prod.mk.injEq, List.not_mem_nil, or_false] at h
    rcases h with ⟨rfl, rfl⟩ | ⟨rfl, rfl⟩ | ⟨rfl, rfl⟩ <;> simp
  | plain h =>
    intro d hd
    obtain rfl := List.mem_singleton.mp hd
    simp only [List.mem_cons, List.not_mem_nil, or_false, not_or] at h
    exact ⟨h.2.1, h.2.2⟩
  | code h hwidth =>
    intro d hd
    rcases List.mem_cons.mp hd with rfl | hd
    · decide
    rcases List.mem_cons.mp hd with rfl | hd
    · simp only [List.mem_cons, Prod.mk.injEq, List.not_mem_nil, or_false] at h
      rcases h with ⟨rfl, -⟩ | ⟨rfl, -⟩ | ⟨rfl, -⟩ <;> decide
    · obtain ⟨value, hvalue, rfl⟩ := mem_hexDigits hd
      exact hexDigit_ne value hvalue

/-! ## Texts -/

theorem readChar_flatMap (hquote : IsQuote quote) (cs : List Char) :
    readChar ((c :: cs).flatMap (encodeChar quote)) =
      some (c, cs.flatMap (encodeChar quote)) := by
  rw [List.flatMap_cons]
  exact (encodes_encodeChar quote c).readChar hquote

/-- Between the same quotes, texts are told by how they are written. -/
theorem flatMap_encodeChar_inj (hquote : IsQuote quote) {cs ds : List Char}
    (h : cs.flatMap (encodeChar quote) = ds.flatMap (encodeChar quote)) : cs = ds := by
  -- Both are read one character at a time.
  induction cs generalizing ds with
  | nil =>
    cases ds with
    | nil => rfl
    | cons d ds =>
      have hread := congrArg readChar h
      rw [readChar_flatMap hquote] at hread
      cases hread
  | cons c cs ih =>
    have hread := congrArg readChar h
    rw [readChar_flatMap hquote] at hread
    cases ds with
    | nil => cases hread
    | cons d ds =>
      rw [readChar_flatMap hquote] at hread
      obtain ⟨rfl, hrest⟩ := Prod.mk.inj (Option.some.inj hread)
      rw [ih hrest]

end Quoted

open Quoted

theorem toList_quoted (text : String) :
    (quoted text).toList = quoteFor text.toList ::
      (text.toList.flatMap (encodeChar (quoteFor text.toList)) ++ [quoteFor text.toList]) := by
  simp [quoted]

/-- **Quoted text can be read back.** -/
theorem quoted_inj {text text' : String} : quoted text = quoted text' ↔ text = text' := by
  constructor
  · intro h
    have hlists := congrArg String.toList h
    rw [toList_quoted, toList_quoted] at hlists
    obtain ⟨hquote, hrest⟩ := List.cons.inj hlists
    rw [hquote] at hrest
    exact String.ext (flatMap_encodeChar_inj (isQuote_quoteFor _) (List.append_cancel_right hrest))
  · exact congrArg quoted

theorem forall_mem_quoted {text : String} :
    ∀ c ∈ (quoted text).toList, c ≠ '\n' ∧ c ≠ '\t' := by
  have hquote := isQuote_quoteFor text.toList
  have hmark : quoteFor text.toList ≠ '\n' ∧ quoteFor text.toList ≠ '\t' := by
    rcases hquote with h | h <;> rw [h] <;> decide
  intro c hc
  rw [toList_quoted, List.mem_cons, List.mem_append, List.mem_flatMap, List.mem_singleton] at hc
  rcases hc with rfl | ⟨d, -, hd⟩ | rfl
  · exact hmark
  · exact (encodes_encodeChar _ d).forall_mem hquote c hd
  · exact hmark

end Text
end PascalCheck
