import FunctionApp.Binding.Kind
import FunctionApp.Shim.ContentType

/-!
# Shims

A shim is the generated code between the host and a handler: it takes each argument out of the
envelope of the host, calls the handler, and writes the result to an output. Its variables are
numbered in the order in which they appear.
-/

namespace FunctionApp

/-- Where a shim finds a value in the envelope. -/
inductive Source where
  /-- A placeholder of the route. -/
  | pathParam (token : String)
  /-- The segments that a rest placeholder takes. -/
  | restPath (name : String)
  | query (name : String)
  | header (name : String)
  /-- One header for each field of a record. -/
  | headerRecord (fields : List String)
  /-- The body of a request, in the given encoding unless the request declares another. -/
  | payload (default : ContentType)
  | triggerData (binding : String)
  | inputBinding (name : String)
  | metadata (key : String)
deriving DecidableEq

/-- A value of the envelope, read as a type. -/
structure Expression where
  source : Source
  type : TypeExpr
deriving DecidableEq

inductive Statement where
  /-- Gives a value of the envelope to a variable. -/
  | bind (var : String) (value : Expression)
  /-- Calls the handler, and gives its value to a variable if it has one. -/
  | invoke (handler : String) (args : List String) (result : Option String) (fallible : Bool)
  /-- Writes a variable, or an empty response, to an output binding. -/
  | marshal (binding : String) (kind : BindingKind) (var : Option String) (encoding : ContentType)
deriving DecidableEq

structure Shim where
  function : String
  handler : String
  statements : List Statement
deriving DecidableEq

/-- The `n`-th variable of a shim, with a word that says what it is for. -/
def freshName (word : String) (n : Nat) : String := word ++ toString n

/-- A name as an identifier of the generated code: small ASCII letters, digits and underscores, not
starting with a digit. -/
def codeIdent (name : String) : String :=
  let ident := name.toList.map fun c => if c.isAlphanum then c.toLower else '_'
  match ident with
  | [] => "_"
  | c :: _ => String.ofList (if c.isDigit then '_' :: ident else ident)

def Shim.ident (shim : Shim) : String := "invoke_" ++ codeIdent shim.function

end FunctionApp
