import FunctionApp.Command.Option
import FunctionApp.Config.Basic

/-!
# Commands

What a command line asks for: a command, and the project that it is about.
-/

namespace FunctionApp

inductive Command where
  /-- Makes a new project in a directory. -/
  | init (path : String) (name : Option String)
  /-- Builds the app of a project, to another directory if one is given. -/
  | build (native : Bool) (output : Option String)
  /-- Checks a project, and writes nothing. -/
  | validate
  | list
  | show_ (name : String)
deriving DecidableEq, Repr

/-- A command with the configuration, or the directory, of the project that it is about. -/
structure CommandLine where
  config : String
  command : Command
deriving DecidableEq, Repr

namespace Command

def helpOption : OptionKind := ⟨"help", some 'h', false⟩

def generalOptions : List OptionKind :=
  [⟨"config", some 'c', true⟩, ⟨"verbose", some 'v', false⟩, helpOption]

def initOptions : List OptionKind := [⟨"name", some 'n', true⟩, helpOption]

def buildOptions : List OptionKind :=
  [⟨"native", none, false⟩, ⟨"output", some 'o', true⟩, helpOption]

def noOperand (words : List Word) : Except UsageFault Unit :=
  match operands words with
  | [] => .ok ()
  | text :: _ => .error (.unexpectedOperand text)

def operand? (words : List Word) : Except UsageFault (Option String) :=
  match operands words with
  | [] => .ok none
  | [text] => .ok (some text)
  | _ :: text :: _ => .error (.unexpectedOperand text)

def readInit (args : List String) : Except UsageFault Command := do
  let (words, _) ← readWords initOptions false none args
  return .init ((← operand? words).getD ".") (← value? "name" words)

def readBuild (args : List String) : Except UsageFault Command := do
  let (words, _) ← readWords buildOptions false none args
  noOperand words
  return .build (← value? "native" words).isSome (← value? "output" words)

def readAlone (command : Command) (args : List String) : Except UsageFault Command := do
  let (words, _) ← readWords [helpOption] false none args
  noOperand words
  return command

def readShow (args : List String) : Except UsageFault Command := do
  let (words, _) ← readWords [helpOption] false none args
  match ← operand? words with
  | some name => return .show_ name
  | none => .error (.missingOperand "NAME")

/-- The name of a command after options, and the words after it. -/
def commandName (options : List OptionKind) (args : List String) :
    Except UsageFault (List Word × String × List String) := do
  let (words, rest) ← readWords options true none args
  noOperand words
  match rest with
  | [] => .error .missingCommand
  | name :: rest => return (words, name, rest)

def readFunctions (args : List String) : Except UsageFault Command := do
  let (_, name, rest) ← commandName [helpOption] args
  match name with
  | "list" => readAlone .list rest
  | "show" => readShow rest
  | "help" => .error .help
  | other => .error (.unknownCommand other)

/-- The command that a name and the words after it ask for. -/
def read (name : String) (args : List String) : Except UsageFault Command :=
  match name with
  | "init" => readInit args
  | "build" => readBuild args
  | "validate" => readAlone .validate args
  | "functions" => readFunctions args
  | "help" => .error .help
  | other => .error (.unknownCommand other)

end Command

/-- Reads a command line. The configuration has its usual name unless another one is given. -/
def CommandLine.read (args : List String) : Except Command.UsageFault CommandLine := do
  let (words, name, rest) ← Command.commandName Command.generalOptions args
  let config ← Command.value? "config" words
  let _ ← Command.value? "verbose" words
  return ⟨config.getD configFile, ← Command.read name rest⟩

end FunctionApp
