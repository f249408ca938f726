import PascalCheck.Builtin.Basic

/-! The standard built-in routines. -/
namespace PascalCheck
namespace Catalogue

/-- A function of the standard catalogue. -/
def standardFunction (name : String) (result : ResultRule) (minimum maximum : Int) :
    BuiltinRoutine :=
  ⟨name, minimum, maximum, some result⟩

/-- A procedure of the standard catalogue. -/
def standardProcedure (name : String) (minimum maximum : Int) : BuiltinRoutine :=
  ⟨name, minimum, maximum, none⟩

/-- Arithmetic, conversion, strings, and the screen. -/
def standardFunctions : List BuiltinRoutine :=
  [standardFunction "abs" .sameAsFirst 1 1,
   standardFunction "sqr" .sameAsFirst 1 1,
   standardFunction "sqrt" (.fixed .real) 1 1,
   standardFunction "sin" (.fixed .real) 1 1,
   standardFunction "cos" (.fixed .real) 1 1,
   standardFunction "ln" (.fixed .real) 1 1,
   standardFunction "exp" (.fixed .real) 1 1,
   standardFunction "arctan" (.fixed .real) 1 1,
   standardFunction "int" (.fixed .real) 1 1,
   standardFunction "frac" (.fixed .real) 1 1,
   standardFunction "trunc" (.fixed .integer) 1 1,
   standardFunction "round" (.fixed .integer) 1 1,
   standardFunction "ord" (.fixed .integer) 1 1,
   standardFunction "chr" (.fixed .char) 1 1,
   standardFunction "succ" .sameAsFirst 1 1,
   standardFunction "pred" .sameAsFirst 1 1,
   standardFunction "odd" (.fixed .boolean) 1 1,
   standardFunction "length" (.fixed .integer) 1 1,
   standardFunction "copy" (.fixed .string) 3 3,
   standardFunction "concat" (.fixed .string) 1 99,
   standardFunction "pos" (.fixed .integer) 2 2,
   standardFunction "upcase" (.fixed .char) 1 1,
   standardFunction "lowercase" (.fixed .char) 1 1,
   standardFunction "sizeof" (.fixed .integer) 1 1,
   standardFunction "random" (.fixed .integer) 0 1,
   standardFunction "readkey" (.fixed .char) 0 0,
   standardFunction "keypressed" (.fixed .boolean) 0 0,
   standardFunction "wherex" (.fixed .integer) 0 0,
   standardFunction "wherey" (.fixed .integer) 0 0]

/-- Variables, strings, the screen, memory, and files. -/
def standardProcedures : List BuiltinRoutine :=
  [standardProcedure "inc" 1 2,
   standardProcedure "dec" 1 2,
   standardProcedure "val" 3 3,
   standardProcedure "str" 2 2,
   standardProcedure "delete" 3 3,
   standardProcedure "insert" 3 3,
   standardProcedure "clrscr" 0 0,
   standardProcedure "gotoxy" 2 2,
   standardProcedure "delay" 1 1,
   standardProcedure "halt" 0 1,
   standardProcedure "exit" 0 0,
   standardProcedure "dispose" 1 1,
   standardProcedure "new" 1 1,
   standardProcedure "assign" 2 2,
   standardProcedure "reset" 1 1,
   standardProcedure "rewrite" 1 1,
   standardProcedure "close" 1 1,
   standardProcedure "append" 1 1,
   standardProcedure "randomize" 0 0]

/-- The routines that are known unless a run asks for none. -/
def standard : Catalogue :=
  ⟨standardFunctions, standardProcedures⟩

/-- The catalogue with all routines of another one. -/
def merge (catalogue other : Catalogue) : Catalogue :=
  ⟨other.functions.foldl (fun functions routine => routine.insert functions) catalogue.functions,
   other.procedures.foldl (fun procedures routine => routine.insert procedures)
     catalogue.procedures⟩

end Catalogue
end PascalCheck
