import ChipEight.Text.IntegerLiteral

/-!
# Command-line arguments

A command takes one plain argument and options with names of two dashes. A value follows its option
or is joined to it by `=`; an unambiguous beginning of a name stands for the name; after `--` all
arguments are plain. A negative number and an argument with a blank in it are plain, unless they
begin an option. Two dashes are never the value of an option: joined to it they leave it without
one. Arguments are made of whole characters.
-/
namespace ChipEight.CommandLine

inductive ValueKind where
  /-- The option is given without a value. -/
  | flag
  | text
  | integer
  | choice (choices : List String)
  /-- The option asks for help and ends the reading of arguments. -/
  | help
  deriving DecidableEq, Repr

namespace ValueKind

def takesValue : ValueKind → Bool
  | flag | help => false
  | text | integer | choice _ => true

def accepts : ValueKind → String → Bool
  | integer, value => (Text.IntegerLiteral.parse? value).isSome
  | choice choices, value => choices.contains value
  | _, _ => true

end ValueKind

structure OptionSpec where
  name : String
  kind : ValueKind
  deriving DecidableEq, Repr

inductive UsageError where
  | ambiguous (argument : String)
  | missingValue (option : String)
  | unwantedValue (option value : String)
  | invalidValue (option value : String)
  | missingArgument
  | unrecognized (arguments : List String)
  | helpRequested
  deriving DecidableEq, Repr

/-- The exit status of a command that was not called properly. -/
def UsageError.status : UsageError → Nat
  | helpRequested => 0
  | _ => 2

inductive Argument where
  | plain (text : String)
  | option (spec : OptionSpec) (value : Option String)
  | unknown (text : String)
  /-- The first `--`. -/
  | terminator
  deriving DecidableEq, Repr

namespace Argument

/-- Two texts around the first equals sign. -/
def splitValue? (text : List Char) : Option (String × String) :=
  match text.dropWhile (· ≠ '=') with
  | [] => none
  | _ :: value => some (String.ofList (text.takeWhile (· ≠ '=')), String.ofList value)

def isFraction (digits : List Char) : Bool :=
  match digits.dropWhile Text.IntegerLiteral.isDigit with
  | '.' :: rest => !rest.isEmpty && rest.all Text.IntegerLiteral.isDigit
  | _ => false

/-- A minus sign, then digits or a decimal fraction; a line feed may end it. -/
def isNegativeNumber : List Char → Bool
  | '-' :: rest =>
    let rest := if rest.getLast? = some '\n' then rest.dropLast else rest
    (!rest.isEmpty && rest.all Text.IntegerLiteral.isDigit) || isFraction rest
  | _ => false

/-- The options that a text may stand for, with the values joined to it. A single dash is followed
by a name of one letter and its value. -/
def candidates (specs : List OptionSpec) (text : String) : List Argument :=
  match text.toList with
  | '-' :: '-' :: _ =>
    let (beginning, value) := match splitValue? text.toList with
      | some (beginning, value) => (beginning, some value)
      | none => (text, none)
    (specs.filter fun spec => beginning.toList.isPrefixOf spec.name.toList).map (option · value)
  | '-' :: letter :: value =>
    (specs.filter fun spec => spec.name.toList = ['-', letter]).map
      (option · (some (String.ofList value)))
  | _ => []

def find? (specs : List OptionSpec) (name : String) : Option OptionSpec :=
  specs.find? (·.name == name)

def classify (specs : List OptionSpec) (text : String) : Except UsageError Argument :=
  if text.toList.head? ≠ some '-' ∨ text = "-" then .ok (plain text)
  else match find? specs text, (splitValue? text.toList).bind fun (name, value) =>
      (find? specs name).map (option · (some value)) with
    | some spec, _ => .ok (option spec none)
    | none, some joined => .ok joined
    | none, none =>
      match candidates specs text with
      | [only] => .ok only
      | [] =>
        if isNegativeNumber text.toList ∨ ' ' ∈ text.toList then .ok (plain text)
        else .ok (unknown text)
      | _ => .error (.ambiguous text)

def classifyAll (specs : List OptionSpec) : List String → Except UsageError (List Argument)
  | [] => .ok []
  | "--" :: rest => .ok (terminator :: rest.map plain)
  | text :: rest => return (← classify specs text) :: (← classifyAll specs rest)

end Argument

/-- How an option stands when all arguments have been read. -/
inductive Setting (α : Type) where
  | absent
  /-- Given without a value. -/
  | bare
  | value (value : α)
  deriving DecidableEq, Repr

/-- The value in use if an absent option has the value `default`; a bare one has none. -/
def Setting.withDefault {α : Type} (setting : Setting α) (default : α) : Option α :=
  match setting with
  | .absent => some default
  | .bare => none
  | .value given => some given

/-- What has been read so far. -/
structure Arguments where
  plain : Option String := none
  /-- Options in the order they were given, flags with an empty value. -/
  options : List (String × Option String) := []
  unrecognized : List String := []
  deriving DecidableEq, Repr

namespace Arguments

def put (current : Arguments) (name : String) (value : Option String) : Arguments :=
  { current with options := current.options ++ [(name, value)] }

def record (current : Arguments) (spec : OptionSpec) (value : String) :
    Except UsageError Arguments :=
  if spec.kind = .help then .error .helpRequested
  else if spec.kind.accepts value then .ok (current.put spec.name (some value))
  else .error (.invalidValue spec.name value)

/-- A value that is joined to its option. Two dashes are dropped and not checked. -/
def recordJoined (current : Arguments) (spec : OptionSpec) (value : String) :
    Except UsageError Arguments :=
  if value = "--" then .ok (current.put spec.name none) else current.record spec value

def ignore (current : Arguments) (text : String) : Arguments :=
  { current with unrecognized := current.unrecognized ++ [text] }

/-- Letters after an option of one letter are options themselves; as there is only one such option,
they repeat it. -/
def repeats (spec : OptionSpec) (letters : String) : Bool :=
  letters ≠ "" && letters.toList.all fun letter => spec.name.toList = ['-', letter]

/-- An option that takes no value. -/
def recordFlag (current : Arguments) (spec : OptionSpec) (value : Option String) :
    Except UsageError Arguments :=
  match value with
  | none => current.record spec ""
  | some value =>
    if repeats spec value then current.record spec ""
    else .error (.unwantedValue spec.name value)

/-- Read arguments from left to right. A terminator belongs to the plain argument just before it, or
else to the one that it precedes. -/
def readFrom (current : Arguments) (justRead : Bool) :
    List Argument → Except UsageError Arguments
  | [] => .ok current
  | .plain text :: rest =>
    match current.plain with
    | none => readFrom { current with plain := some text } true rest
    | some _ => readFrom (current.ignore text) false rest
  | .unknown text :: rest => readFrom (current.ignore text) false rest
  | .terminator :: rest =>
    if justRead ∨ (current.plain = none ∧ rest ≠ []) then readFrom current false rest
    else readFrom (current.ignore "--") false rest
  | .option spec (some value) :: rest => do
    let next ← if spec.kind.takesValue then current.recordJoined spec value
      else current.recordFlag spec (some value)
    readFrom next false rest
  | .option spec none :: .plain value :: rest => do
    if spec.kind.takesValue then
      readFrom (← current.record spec value) false rest
    else
      readFrom (← current.recordFlag spec none) false (.plain value :: rest)
  | .option spec none :: rest => do
    if spec.kind.takesValue then .error (.missingValue spec.name)
    else readFrom (← current.recordFlag spec none) false rest

/-- The last occurrence of an option decides. -/
def setting (arguments : Arguments) (name : String) : Setting String :=
  match arguments.options.reverse.lookup name with
  | none => .absent
  | some none => .bare
  | some (some value) => .value value

def has (arguments : Arguments) (name : String) : Bool := arguments.setting name ≠ .absent

/-- Values that are no integers have been refused before. -/
def integer (arguments : Arguments) (name : String) : Setting Int :=
  match arguments.setting name with
  | .absent => .absent
  | .bare => .bare
  | .value text => (Text.IntegerLiteral.parse? text).elim .absent .value

/-- An option given with an empty text or without a value counts as not given. -/
def text? (arguments : Arguments) (name : String) : Option String :=
  match arguments.setting name with
  | .absent | .bare => none
  | .value text => if text.isEmpty then none else some text

/-- The plain argument and the options of a command that was called properly. -/
def parse (specs : List OptionSpec) (argv : List String) :
    Except UsageError (String × Arguments) := do
  let help : List OptionSpec := [⟨"-h", .help⟩, ⟨"--help", .help⟩]
  let arguments ← readFrom {} false (← Argument.classifyAll (help ++ specs) argv)
  match arguments.plain with
  | none => .error .missingArgument
  | some plain =>
    if arguments.unrecognized.isEmpty then return (plain, arguments)
    else .error (.unrecognized arguments.unrecognized)

end Arguments
end ChipEight.CommandLine
