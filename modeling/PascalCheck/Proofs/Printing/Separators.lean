import PascalCheck.Proofs.Printing.Print

/-! # Printing with separators that can be left out

The semicolons between the statements of a list are the separators of a printed program.  Here each
of them is attached to what it stands in front of, the first lexeme of the statement that follows it
(`Printed`), so that the other ways to write the program are the same lexemes with some separators
left out (`LeavesOut`).  With all of them it is the printed program (`Program.write_printed`). -/
namespace PascalCheck
open Grammar

/-- A lexeme of a printed tree, with a separator in front of it or without. -/
structure Printed where
  lexeme : Lexeme
  separated : Bool := false

namespace Printed

/-- Lexemes among which there are no separators. -/
def plain (ls : List Lexeme) : List Printed :=
  ls.map fun l => ⟨l, false⟩

/-- A statement behind a separator. -/
def behind : List Printed → List Printed
  | [] => []
  | p :: rest => ⟨p.lexeme, true⟩ :: rest

/-- The statements of a list, all but the first one behind separators. -/
def listed : List (List Printed) → List Printed
  | [] => []
  | first :: rest => first ++ rest.flatMap behind

/-- What is written if no separator is left out. -/
def write (ps : List Printed) : List Lexeme :=
  ps.flatMap fun p => if p.separated then [.mark .semicolon, p.lexeme] else [p.lexeme]

@[simp] theorem write_nil : write [] = [] := rfl

theorem write_cons (p : Printed) (ps : List Printed) :
    write (p :: ps) =
      (if p.separated then [.mark .semicolon, p.lexeme] else [p.lexeme]) ++ write ps :=
  List.flatMap_cons

@[simp] theorem write_append (ps qs : List Printed) : write (ps ++ qs) = write ps ++ write qs :=
  List.flatMap_append

@[simp] theorem write_plain (ls : List Lexeme) : write (plain ls) = ls := by
  unfold write plain
  rw [List.flatMap_map]
  simp

end Printed

/-- The tokens write the lexemes, with some separators left out.  For each of these the gaps have
the token in front of which it is missing: the first one of the statement behind the gap. -/
inductive LeavesOut : List Printed → List Token → List Token → Prop where
  | nil : LeavesOut [] [] []
  /-- A lexeme without a separator. -/
  | plain {p : Printed} {ps : List Printed} {t : Token} {ts gaps : List Token}
      (hp : p.separated = false) (ht : t.lexeme = p.lexeme) (h : LeavesOut ps ts gaps) :
      LeavesOut (p :: ps) (t :: ts) gaps
  /-- A separator is there. -/
  | kept {p : Printed} {ps : List Printed} {separator t : Token} {ts gaps : List Token}
      (hp : p.separated = true) (hs : separator.lexeme = .mark .semicolon)
      (ht : t.lexeme = p.lexeme) (h : LeavesOut ps ts gaps) :
      LeavesOut (p :: ps) (separator :: t :: ts) gaps
  /-- A separator is left out. -/
  | gap {p : Printed} {ps : List Printed} {t : Token} {ts gaps : List Token}
      (hp : p.separated = true) (ht : t.lexeme = p.lexeme) (h : LeavesOut ps ts gaps) :
      LeavesOut (p :: ps) (t :: ts) (t :: gaps)

/-! ## Trees with their separators -/

namespace Node

mutual

/-- The lexemes that write a statement, with the separators of the lists in it. -/
def printed : Node → List Printed
  | ifThen condition thenBranch elseBranch _ =>
    Printed.plain (.mark (.keyword .if) :: (condition.print ++ [.mark (.keyword .then)])) ++
      (printed thenBranch ++
        if elseBranch.isAbsent then []
        else Printed.plain [.mark (.keyword .else)] ++ printed elseBranch)
  | whileDo condition body _ =>
    Printed.plain (.mark (.keyword .while) :: (condition.print ++ [.mark (.keyword .do)])) ++
      printed body
  | forDo counter start finish downward body _ =>
    Printed.plain (.mark (.keyword .for) :: .name counter :: .mark .assign ::
      (start.print ++ .mark (.keyword (directionWord downward)) ::
        (finish.print ++ [.mark (.keyword .do)]))) ++ printed body
  | repeatUntil statements condition _ =>
    Printed.plain [.mark (.keyword .repeat)] ++
      (Printed.listed (printedEach statements) ++
        Printed.plain (.mark (.keyword .until) :: condition.print))
  | block statements _ =>
    Printed.plain [.mark (.keyword .begin)] ++
      (Printed.listed (printedEach statements) ++ Printed.plain [.mark (.keyword .end)])
  | n => Printed.plain n.print

def printedEach : List Node → List (List Printed)
  | [] => []
  | n :: rest => printed n :: printedEach rest

end

mutual

/-- Every statement in the statement is there, except that a branch in front of an `else` may be
empty.  So no statement ends, through the bodies of loops and the last branches of conditionals, in
an empty one. -/
def isFull : Node → Bool
  | .absent => false
  | ifThen _ thenBranch elseBranch _ =>
    if elseBranch.isAbsent then isFull thenBranch
    else (thenBranch.isAbsent || isFull thenBranch) && isFull elseBranch
  | whileDo _ body _ => isFull body
  | forDo _ _ _ _ body _ => isFull body
  | repeatUntil statements _ _ => allFull statements
  | block statements _ => allFull statements
  | _ => true

def allFull : List Node → Bool
  | [] => true
  | n :: rest => isFull n && allFull rest

end

end Node

namespace Body

def printed : Body → List Printed
  | missing => []
  | block statements _ =>
    Printed.plain [.mark (.keyword .begin)] ++
      (Printed.listed (Node.printedEach statements) ++ Printed.plain [.mark (.keyword .end)])

def isFull : Body → Bool
  | missing => true
  | block statements _ => Node.allFull statements

end Body

namespace Node

/-- The lexemes that write a declaration, with the separators in the body of a routine. -/
def printedDeclaration : Node → List Printed
  | function name parameters result declarations body _ =>
    Printed.plain (.mark (.keyword .function) :: .name name ::
      (Lexeme.parenthesized .semicolon (parameters.map Parameter.print) ++ .mark .colon ::
        (result.print ++ .mark .semicolon :: declarations.flatMap printSection))) ++
      (body.printed ++ Printed.plain [.mark .semicolon])
  | procedure name parameters declarations body _ =>
    Printed.plain (.mark (.keyword .procedure) :: .name name ::
      (Lexeme.parenthesized .semicolon (parameters.map Parameter.print) ++ .mark .semicolon ::
        declarations.flatMap printSection)) ++
      (body.printed ++ Printed.plain [.mark .semicolon])
  | declaration => Printed.plain declaration.printSection

def isFullDeclaration : Node → Bool
  | function _ _ _ _ body _ => body.isFull
  | procedure _ _ _ body _ => body.isFull
  | _ => true

end Node

namespace Program

/-- The lexemes that write a program, with the separators of its statements. -/
def printed (p : Program) : List Printed :=
  Printed.plain [.mark (.keyword .program), .name p.name, .mark .semicolon] ++
    (p.declarations.flatMap Node.printedDeclaration ++
      (p.body.printed ++ Printed.plain [.mark .dot]))

/-- Every statement in the program is there. -/
def isFull (p : Program) : Bool :=
  p.declarations.all Node.isFullDeclaration && p.body.isFull

end Program

/-! ## With all separators -/

theorem Lexeme.joined_cons (separator : TokenKind) (ls : List Lexeme) (items : List (List Lexeme)) :
    joined separator (ls :: items) = ls ++ items.flatMap (mark separator :: ·) := by
  induction items generalizing ls with
  | nil => simp [joined]
  | cons item items ih =>
    rw [joined, ih, List.flatMap_cons, List.cons_append]
    exact nofun

namespace Node

/-- A statement that is there begins with a lexeme that has no separator in front of it. -/
theorem printed_eq_cons {n : Node} (hw : n.isWellFormed = true) (hn : n.isAbsent = false) :
    ∃ l ps, n.printed = ⟨l, false⟩ :: ps := by
  cases n with
  | ifThen | whileDo | forDo | repeatUntil | block => exact ⟨_, _, rfl⟩
  | assignment | write | read | call => exact ⟨_, _, rfl⟩
  | expression e =>
    cases e with
    | absent => cases hn
    | _ => cases hw
  | _ => cases hw

/-- What is written is what is printed, and begins with a lexeme without a separator. -/
def IsPrinted (n : Node) : Prop :=
  Printed.write n.printed = n.print ∧ ∃ l ps, n.printed = ⟨l, false⟩ :: ps

theorem write_listed {ns : List Node} (h : ∀ n ∈ ns, n.IsPrinted) :
    Printed.write (Printed.listed (printedEach ns)) =
      Lexeme.joined .semicolon (printEach ns) := by
  have hbehind : ∀ rest : List Node, (∀ n ∈ rest, n.IsPrinted) →
      Printed.write ((printedEach rest).flatMap Printed.behind) =
        (printEach rest).flatMap (.mark .semicolon :: ·) := by
    intro rest
    induction rest with
    | nil => exact fun _ => rfl
    | cons n rest ih =>
      intro hrest
      obtain ⟨hwrite, l, ps, hps⟩ := hrest n List.mem_cons_self
      have htail := ih fun m hm => hrest m (List.mem_cons_of_mem _ hm)
      rw [hps] at hwrite
      rw [printedEach, printEach, List.flatMap_cons, List.flatMap_cons, Printed.write_append, htail,
        hps, ← hwrite]
      rfl
  cases ns with
  | nil => rfl
  | cons n rest =>
    rw [printedEach, printEach, Lexeme.joined_cons, Printed.listed, Printed.write_append,
      (h n List.mem_cons_self).1, hbehind rest fun m hm => h m (List.mem_cons_of_mem _ hm)]

mutual

theorem write_printed : ∀ n : Node, n.isWellFormed = true → Printed.write n.printed = n.print
  | ifThen condition thenBranch elseBranch line, h => by
    simp only [isWellFormed, Bool.and_eq_true] at h
    have hthen := write_printed thenBranch h.1.1.2
    have helse := write_printed elseBranch h.1.2
    rw [printed, print]
    split <;> simp [hthen, helse]
  | whileDo condition body line, h => by
    simp only [isWellFormed, Bool.and_eq_true] at h
    simp [printed, print, write_printed body h.2]
  | forDo counter start finish downward body line, h => by
    simp only [isWellFormed, Bool.and_eq_true] at h
    simp [printed, print, write_printed body h.2]
  | repeatUntil statements condition line, h => by
    simp only [isWellFormed, Bool.and_eq_true] at h
    simp [printed, print, write_listed (isPrinted_of_mem statements h.1)]
  | block statements line, h => by
    simp [printed, print, Lexeme.between, write_listed (isPrinted_of_mem statements h)]
  | .absent, h | assignment _ _ _ _, h | write _ _ _, h | read _ _ _, h | call _ _ _, h => by
    simp [printed]

theorem isPrinted_of_mem : ∀ ns : List Node, allWellFormed ns = true → ∀ n ∈ ns, n.IsPrinted
  | [], _, _, hn => nomatch hn
  | first :: rest, h, n, hn => by
    simp only [allWellFormed, Bool.and_eq_true, Bool.not_eq_true'] at h
    rcases List.mem_cons.mp hn with hn | hn
    · exact hn ▸ ⟨write_printed first h.1.2, printed_eq_cons h.1.2 h.1.1⟩
    · exact isPrinted_of_mem rest h.2 n hn

end

end Node

theorem Body.write_printed {body : Body} (h : body.isWellFormed = true) :
    Printed.write body.printed = body.print := by
  cases body with
  | missing => cases h
  | block statements line =>
    simp [printed, print, Lexeme.between, Node.write_listed (Node.isPrinted_of_mem statements h)]

theorem Node.write_printedDeclaration {n : Node} (h : n.isDeclaration = true) :
    Printed.write n.printedDeclaration = n.printDeclaration := by
  cases n with
  | function name parameters result declarations body line =>
    simp only [isDeclaration, Bool.and_eq_true] at h
    simp [printedDeclaration, printDeclaration, Body.write_printed h.2]
  | procedure name parameters declarations body line =>
    simp only [isDeclaration, Bool.and_eq_true] at h
    simp [printedDeclaration, printDeclaration, Body.write_printed h.2]
  | _ => simp [printedDeclaration, printDeclaration]

/-- **With all separators, what is written is the printed program.** -/
theorem Program.write_printed {p : Program} (h : p.isWellFormed = true) :
    Printed.write p.printed = p.print := by
  simp only [isWellFormed, Bool.and_eq_true, List.all_eq_true] at h
  have hdeclarations : Printed.write (p.declarations.flatMap Node.printedDeclaration) =
      p.declarations.flatMap Node.printDeclaration := by
    have hall := h.1
    generalize p.declarations = declarations at hall
    induction declarations with
    | nil => rfl
    | cons n rest ih =>
      rw [List.flatMap_cons, List.flatMap_cons, Printed.write_append,
        Node.write_printedDeclaration (hall n List.mem_cons_self),
        ih fun m hm => hall m (List.mem_cons_of_mem _ hm)]
  simp [printed, print, hdeclarations, Body.write_printed h.2]

/-! ## What is left out where -/

namespace LeavesOut

variable {ps qs : List Printed} {ts gaps : List Token}

theorem append_inv (h : LeavesOut (ps ++ qs) ts gaps) :
    ∃ ts₁ ts₂ gaps₁ gaps₂, ts = ts₁ ++ ts₂ ∧ gaps = gaps₁ ++ gaps₂ ∧
      LeavesOut ps ts₁ gaps₁ ∧ LeavesOut qs ts₂ gaps₂ := by
  induction ps generalizing ts gaps with
  | nil => exact ⟨[], ts, [], gaps, rfl, rfl, .nil, h⟩
  | cons p ps ih =>
    cases h with
    | @plain _ _ t ts _ hp ht h =>
      obtain ⟨ts₁, ts₂, gaps₁, gaps₂, rfl, rfl, h₁, h₂⟩ := ih h
      exact ⟨t :: ts₁, ts₂, gaps₁, gaps₂, rfl, rfl, .plain hp ht h₁, h₂⟩
    | @kept _ _ separator t ts _ hp hs ht h =>
      obtain ⟨ts₁, ts₂, gaps₁, gaps₂, rfl, rfl, h₁, h₂⟩ := ih h
      exact ⟨separator :: t :: ts₁, ts₂, gaps₁, gaps₂, rfl, rfl, .kept hp hs ht h₁, h₂⟩
    | @gap _ _ t ts gaps hp ht h =>
      obtain ⟨ts₁, ts₂, gaps₁, gaps₂, rfl, rfl, h₁, h₂⟩ := ih h
      exact ⟨t :: ts₁, ts₂, t :: gaps₁, gaps₂, rfl, rfl, .gap hp ht h₁, h₂⟩

/-- Each gap is one token of the printed lexemes that is missing. -/
theorem length_add_length (h : LeavesOut ps ts gaps) :
    ts.length + gaps.length = (Printed.write ps).length := by
  induction h with
  | nil => rfl
  | plain hp _ _ ih | kept hp _ _ _ ih | gap hp _ _ ih =>
    simp [Printed.write_cons, hp, ← ih]
    omega

/-- Where there are no separators, none is left out. -/
theorem plain_inv {ls : List Lexeme} (h : LeavesOut (Printed.plain ls) ts gaps) :
    ts.map Token.lexeme = ls ∧ gaps = [] := by
  induction ls generalizing ts gaps with
  | nil =>
    cases h
    exact ⟨rfl, rfl⟩
  | cons l ls ih =>
    cases h with
    | plain hp ht h =>
      obtain ⟨hts, hgaps⟩ := ih h
      exact ⟨List.cons_eq_cons.mpr ⟨ht, hts⟩, hgaps⟩
    | kept hp _ _ _ | gap hp _ _ => cases hp

/-- Behind a statement the separator is there, or it is left out in front of the next token. -/
theorem behind_inv {l : Lexeme} (h : LeavesOut (Printed.behind (⟨l, false⟩ :: ps)) ts gaps) :
    (∃ separator us, separator.kind = .semicolon ∧ ts = separator :: us ∧
      LeavesOut (⟨l, false⟩ :: ps) us gaps) ∨
    ∃ t us others, ts = t :: us ∧ gaps = t :: others ∧
      LeavesOut (⟨l, false⟩ :: ps) ts others := by
  cases h with
  | plain hp _ _ => cases hp
  | kept _ hs ht h => exact .inl ⟨_, _, congrArg Lexeme.kind hs, rfl, .plain rfl ht h⟩
  | gap _ ht h => exact .inr ⟨_, _, _, rfl, rfl, .plain rfl ht h⟩

end LeavesOut
end PascalCheck
