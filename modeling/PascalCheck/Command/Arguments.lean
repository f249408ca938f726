import PascalCheck.Fault
import PascalCheck.Text.Word

/-! Command lines.

    check FILE... [--symbols] [--ast] [-v] [--builtins FILE]
    verify [--clean DIR] [--errors DIR] [-v] [--builtins FILE]

Options may stand before or after the files, but the files may not be parted by options. A long
option may be cut short as long as no other begins in the same way. -/
namespace PascalCheck

/-- What an option sets. -/
inductive OptionKind where
  | help | verbose | symbols | ast | builtins | clean | errors
  deriving DecidableEq

namespace OptionKind

/-- The option is followed by a value. -/
def takesValue : OptionKind → Bool
  | builtins | clean | errors => true
  | _ => false

def longName : OptionKind → String
  | help => "--help"
  | verbose => "--verbose"
  | symbols => "--symbols"
  | ast => "--ast"
  | builtins => "--builtins"
  | clean => "--clean"
  | errors => "--errors"

/-- The letter by which an option may be given. -/
def ofLetter? : Char → Option OptionKind
  | 'h' => some help
  | 'v' => some verbose
  | _ => none

end OptionKind

/-- The commands. -/
inductive CommandName where
  | check | verify
  deriving DecidableEq

namespace CommandName

def ofText? : String → Option CommandName
  | "check" => some check
  | "verify" => some verify
  | _ => none

/-- The options that a command knows. -/
def options : CommandName → List OptionKind
  | check => [.help, .verbose, .builtins, .symbols, .ast]
  | verify => [.help, .verbose, .builtins, .clean, .errors]

end CommandName

/-- A command line that is understood. An option without a value, or with an empty one, is not
given. -/
structure Arguments where
  command : CommandName
  verbose : Bool := false
  symbols : Bool := false
  ast : Bool := false
  builtins : String := ""
  clean : String := ""
  errors : String := ""
  files : List String := []
  deriving DecidableEq

/-- How a single argument is taken. -/
inductive ArgumentKind where
  | positional
  /-- Two dashes: all further arguments are positional. -/
  | separator
  /-- A long option, with what follows its equals sign. -/
  | long (kind : OptionKind) (value : Option String)
  /-- Letters after a dash, the first of which is an option. -/
  | letters (letters : List Char)
  /-- It looks like an option, and is none. -/
  | unknown
  /-- It cuts several options short. -/
  | ambiguous
  deriving DecidableEq

namespace Arguments

/-- The part of an argument before its first equals sign, and the part after it. -/
def splitValue (argument : List Char) : String × Option String :=
  let name := argument.takeWhile (· != '=')
  (String.ofList name,
    match argument.dropWhile (· != '=') with
    | [] => none
    | _ :: value => some (String.ofList value))

/-- An argument without its last line break, if it ends in one. -/
def dropLineBreak (argument : List Char) : List Char :=
  if argument.getLast? = some '\n' then argument.dropLast else argument

/-- What follows a dash is a number, so that the argument may be a negative number. Its digits may
be of any script, and it may end in a line break. -/
def isNumber (cs : List Char) : Bool :=
  let cs := dropLineBreak cs
  let whole := cs.takeWhile Text.isDecimal
  match cs.dropWhile Text.isDecimal with
  | [] => !whole.isEmpty
  | '.' :: digits => !digits.isEmpty && digits.all Text.isDecimal
  | _ => false

/-- An argument that begins with a dash and names no option: a value if it is a number or holds a
space. -/
def stray (argument : List Char) : ArgumentKind :=
  if isNumber (argument.drop 1) || argument.contains ' ' then .positional else .unknown

/-- One of the known options may be given by the letter. -/
def isOptionLetter (known : List OptionKind) (letter : Char) : Bool :=
  known.any fun kind => OptionKind.ofLetter? letter = some kind

/-- How an argument is taken when the given options are known. -/
def classify (known : List OptionKind) (argument : String) : ArgumentKind :=
  match argument.toList with
  | ['-', '-'] => .separator
  | '-' :: '-' :: rest =>
    let parts := splitValue ('-' :: '-' :: rest)
    match known.find? (·.longName == parts.1) with
    | some kind => .long kind parts.2
    | none =>
      match known.filter fun kind => parts.1.toList.isPrefixOf kind.longName.toList with
      | [] => stray ('-' :: '-' :: rest)
      | [kind] => .long kind parts.2
      | _ => .ambiguous
  | '-' :: letter :: rest =>
    if isOptionLetter known letter then .letters (letter :: rest)
    else stray ('-' :: letter :: rest)
  | _ => .positional

/-- Arguments with how each is taken. After two dashes all are positional. -/
def classifyAll (known : List OptionKind) : List String → List (String × ArgumentKind)
  | [] => []
  | argument :: rest =>
    match classify known argument with
    | .separator => (argument, .separator) :: rest.map fun file => (file, .positional)
    | kind => (argument, kind) :: classifyAll known rest

/-- The command line with an option that has no value. -/
def setFlag (arguments : Arguments) : OptionKind → Arguments
  | .verbose => { arguments with verbose := true }
  | .symbols => { arguments with symbols := true }
  | .ast => { arguments with ast := true }
  | _ => arguments

/-- The command line with an option and its value. -/
def setValue (arguments : Arguments) (value : String) : OptionKind → Arguments
  | .builtins => { arguments with builtins := value }
  | .clean => { arguments with clean := value }
  | .errors => { arguments with errors := value }
  | _ => arguments

/-- The status of a command line that is not understood. -/
def rejected : Fault := .usage 2

/-- The status of a command line that asks for help. -/
def helped : Fault := .usage 0

/-- The letters of one argument, without an equals sign after the first of them if more follows. -/
def joinedLetters : List Char → List Char
  | first :: '=' :: second :: rest => first :: second :: rest
  | letters => letters

/-- Letters of options in one argument. All of them have to be options, and none takes a value. If
help is among them it is given. -/
def readLetters (known : List OptionKind) (letters : List Char) : Except Fault Unit :=
  if !(joinedLetters letters).all (isOptionLetter known) then .error rejected
  else if letters.contains 'h' then .error helped
  else .ok ()

/-- How far the files have been read. -/
inductive FilePhase where
  | before | during | after
  deriving DecidableEq

/-- The reading of a command line: what has been understood, how far the files have been read, and
the option whose value comes next. Something is left over if it could not be placed. -/
structure Reading where
  arguments : Arguments
  phase : FilePhase := .before
  awaiting : Option OptionKind := none
  leftover : Bool := false

namespace Reading

/-- Files can follow. -/
def takesFiles (reading : Reading) : Bool :=
  reading.arguments.command = .check && reading.phase ≠ .after

/-- The reading after a positional argument, which is a file if files can follow. -/
def file (reading : Reading) (name : String) : Reading :=
  if reading.takesFiles then
    let files := reading.arguments.files ++ [name]
    { reading with arguments := { reading.arguments with files }, phase := .during }
  else { reading with leftover := true }

/-- The reading after an option, which ends the files. -/
def option (reading : Reading) (arguments : Arguments) : Reading :=
  let phase := if reading.phase = .during then .after else reading.phase
  { reading with arguments, phase, awaiting := none }

/-- The reading after one more argument. A value of two dashes is no value. -/
def next (reading : Reading) (argument : String) (kind : ArgumentKind) : Except Fault Reading :=
  match reading.awaiting, kind with
  | some kind, .positional => .ok (reading.option (reading.arguments.setValue argument kind))
  | some _, _ => .error rejected
  | none, .positional => .ok (reading.file argument)
  | none, .separator => .ok { reading with leftover := reading.leftover || !reading.takesFiles }
  | none, .letters letters => do
    readLetters reading.arguments.command.options letters
    return reading.option (reading.arguments.setFlag .verbose)
  | none, .long kind value =>
    match value with
    | some value =>
      if kind.takesValue then
        let value := if value = "--" then "" else value
        .ok (reading.option (reading.arguments.setValue value kind))
      else .error rejected
    | none =>
      if kind.takesValue then .ok { reading.option reading.arguments with awaiting := some kind }
      else if kind = .help then .error helped
      else .ok (reading.option (reading.arguments.setFlag kind))
  | none, .unknown => .ok { reading.option reading.arguments with leftover := true }
  | none, .ambiguous => .error rejected

/-- The command line that has been read, if it is complete. -/
def finish (reading : Reading) : Except Fault Arguments :=
  if reading.leftover || reading.awaiting.isSome then .error rejected
  else if reading.arguments.command = .check ∧ reading.arguments.files = [] then .error rejected
  else .ok reading.arguments

end Reading

/-- Reads the arguments of a command. None of them may cut several options short, not even after one
that asks for help. -/
def readCommand (command : CommandName) (leftover : Bool) (arguments : List String) :
    Except Fault Arguments := do
  let classified := classifyAll command.options arguments
  if classified.any fun entry => entry.2 = .ambiguous then .error rejected
  else
    let reading ← classified.foldlM (fun reading entry => reading.next entry.1 entry.2)
      ({ arguments := { command }, leftover } : Reading)
    reading.finish

/-- Reads a command line. Before the command stand no options but help; that something else stands
there is found out only after the arguments of the command have been read. -/
def readAfter (leftover : Bool) : List String → Except Fault Arguments
  | [] => .error rejected
  | argument :: rest =>
    match classify [.help] argument with
    | .positional =>
      match CommandName.ofText? argument with
      | some command => readCommand command leftover rest
      | none => .error rejected
    | .long .help none => .error helped
    | .letters letters => do
      readLetters [.help] letters
      .error rejected
    | .unknown => readAfter true rest
    | _ => .error rejected

/-- Reads a command line. -/
def read (arguments : List String) : Except Fault Arguments :=
  readAfter false arguments

end Arguments
end PascalCheck
