/-!
# Options on a command line

The words of a command line are options and operands. An option is written with two dashes and a
name of its own, or with one dash and a letter, and then several letters may follow each other. A
value is the rest of the word, after an equals sign or a letter, or else the next word. After two
dashes alone every word is an operand.
-/

namespace FunctionApp.Command

structure OptionKind where
  name : String
  letter : Option Char
  takesValue : Bool
deriving DecidableEq, Repr

/-- What a word of a command line is. -/
inductive Word where
  | option (name : String) (value : String)
  | operand (text : String)
deriving DecidableEq, Repr

/-- Why the words of a command line are no command. -/
inductive UsageFault where
  | help
  | unknownOption (text : String)
  | missingValue (option : String)
  | unexpectedValue (option : String)
  | repeatedOption (option : String)
  | unknownCommand (text : String)
  | missingCommand
  | missingOperand (name : String)
  | unexpectedOperand (text : String)
deriving DecidableEq, Repr

def UsageFault.message : UsageFault → String
  | .help => "help"
  | .unknownOption text => "unexpected argument '" ++ text ++ "' found"
  | .missingValue option => "a value is required for '--" ++ option ++ "' but none was supplied"
  | .unexpectedValue option => "no value is taken by '--" ++ option ++ "'"
  | .repeatedOption option => "the argument '--" ++ option ++ "' cannot be used multiple times"
  | .unknownCommand text => "unrecognized subcommand '" ++ text ++ "'"
  | .missingCommand => "a subcommand is required"
  | .missingOperand name => "the following required arguments were not provided: <" ++ name ++ ">"
  | .unexpectedOperand text => "unexpected argument '" ++ text ++ "' found"

/-- Whether a word may be the value of the option before it. -/
def isValue (text : String) : Bool :=
  match text.toList with
  | '-' :: _ :: _ => false
  | _ => true

/-- The option that a name or a letter stands for. -/
def optionFor (kinds : List OptionKind) (text : String) (test : OptionKind → Bool) :
    Except UsageFault OptionKind :=
  match kinds.find? test with
  | some kind => if kind.name = "help" then .error .help else .ok kind
  | none => .error (.unknownOption text)

/-- The options that letters after one dash stand for, and the option that waits for its value. -/
def letterOptions (kinds : List OptionKind) (text : String) :
    List Char → Except UsageFault (List Word × Option String)
  | [] => .ok ([], none)
  | letter :: rest => do
    let kind ← optionFor kinds text (·.letter == some letter)
    if kind.takesValue then
      match rest with
      | [] => return ([], some kind.name)
      | '=' :: value => return ([.option kind.name (String.ofList value)], none)
      | value => return ([.option kind.name (String.ofList value)], none)
    else
      let (words, waiting) ← letterOptions kinds text rest
      return (.option kind.name "" :: words, waiting)

/-- The option that is written with two dashes, and the option that waits for its value. -/
def nameOption (kinds : List OptionKind) (text : String) (body : List Char) :
    Except UsageFault (List Word × Option String) := do
  let name := String.ofList (body.takeWhile (· ≠ '='))
  let kind ← optionFor kinds text (·.name == name)
  match kind.takesValue, body.dropWhile (· ≠ '=') with
  | true, [] => return ([], some kind.name)
  | true, _ :: value => return ([.option kind.name (String.ofList value)], none)
  | false, [] => return ([.option kind.name ""], none)
  | false, _ :: _ => .error (.unexpectedValue kind.name)

/-- Reads the words of a command line. Where a command is expected, its name ends the options, and
is left with everything after it. -/
def readWords (kinds : List OptionKind) (expectsCommand : Bool) :
    Option String → List String → Except UsageFault (List Word × List String)
  | none, [] => .ok ([], [])
  | some option, [] => .error (.missingValue option)
  | some option, text :: rest => do
    unless isValue text do .error (.missingValue option)
    let (words, rest) ← readWords kinds expectsCommand none rest
    return (.option option text :: words, rest)
  | none, text :: rest =>
    match text.toList with
    | ['-', '-'] => .ok (rest.map .operand, [])
    | '-' :: c :: body => do
      let (first, waiting) ←
        if c = '-' then nameOption kinds text body else letterOptions kinds text (c :: body)
      let (words, rest) ← readWords kinds expectsCommand waiting rest
      return (first ++ words, rest)
    | _ =>
      if expectsCommand then .ok ([], text :: rest)
      else do
        let (words, rest) ← readWords kinds expectsCommand none rest
        return (.operand text :: words, rest)

def operands (words : List Word) : List String :=
  words.filterMap fun
    | .operand text => some text
    | .option _ _ => none

def valuesFor (name : String) (words : List Word) : List String :=
  words.filterMap fun
    | .option other value => if other = name then some value else none
    | .operand _ => none

/-- The value of an option, which is written at most once. -/
def value? (name : String) (words : List Word) : Except UsageFault (Option String) :=
  match valuesFor name words with
  | [] => .ok none
  | [value] => .ok (some value)
  | _ => .error (.repeatedOption name)

end FunctionApp.Command
