import FunctionApp.Location
import FunctionApp.Text.Split
import FunctionApp.TypeExpr.Basic

/-!
# Programs

A program is a list of documents and the types they share. A document declares listeners and
attaches services to them; the functions of a service are the handlers that a function app is made
of. The declarations keep the order in which they are written.
-/

namespace FunctionApp

inductive AnnotationValue where
  | literal (text : String)
  | list (texts : List String)
deriving DecidableEq, Repr

/-- The value as one text, with commas between the texts of a list. -/
def AnnotationValue.joined : AnnotationValue → String
  | .literal text => text
  | .list texts => String.intercalate "," texts

structure Annotation where
  /-- The name as it is written, with the prefix of an import. -/
  name : String
  fields : List (String × AnnotationValue)
  location : Location
deriving DecidableEq, Repr

/-- The value of a field, if it is written. -/
def Annotation.field? (a : Annotation) (key : String) : Option AnnotationValue :=
  a.fields.lookup key

/-- A segment of the path of a resource. -/
inductive PathSegment where
  | literal (text : String)
  /-- A parameter, which may lack a name. -/
  | param (name : Option String) (type : TypeExpr)
  /-- A parameter for all further segments. -/
  | rest (name : String) (type : TypeExpr)
deriving DecidableEq

/-- How a parameter takes its argument. -/
inductive ParamKind where
  | required
  | defaultable
  | rest
deriving DecidableEq, Repr

def ParamKind.name : ParamKind → String
  | .required => "required"
  | .defaultable => "defaultable"
  | .rest => "rest"

structure Param where
  name : String
  kind : ParamKind
  type : TypeExpr
  annotations : List Annotation
  location : Location

structure Returns where
  type : TypeExpr
  annotations : List Annotation
  location : Location

/-- How a function may be called from outside. -/
inductive Qualifier where
  | resource
  | remote
  | plain
deriving DecidableEq, Repr

structure Function where
  name : String
  qualifier : Qualifier
  /-- The method of a resource. -/
  accessor : Option String
  path : List PathSegment
  params : List Param
  returns : Returns
  location : Location

/-- The listener that a service names: a variable of its document, or one of a type made in place.
-/
inductive ListenerRef where
  | variable (name : String)
  | inline (type : String)
deriving DecidableEq, Repr

structure ListenerDecl where
  name : String
  type : String
  location : Location

/-- A service attached to a listener. -/
structure Service where
  name : Option String
  /-- The segments of the path that it is attached to. -/
  basePath : List String
  listener : ListenerRef
  annotations : List Annotation
  functions : List Function
  location : Location

/-- The attach path with slashes between its segments. -/
def Service.joinedPath (service : Service) : String := String.intercalate "/" service.basePath

structure Document where
  name : String
  /-- The module that each import prefix stands for. -/
  imports : List (String × String)
  listeners : List ListenerDecl
  services : List Service
  functions : List Function

/-- The fields of a record type, and the type of all others if it is open. -/
structure RecordType where
  fields : List (String × TypeExpr)
  rest : Option TypeExpr
deriving DecidableEq

/-- What a type name is defined as. -/
inductive TypeDefinition where
  | record (type : RecordType)
  | object
  | alias (type : TypeExpr)
deriving DecidableEq

/-- An error that the compiler of the program has found in it. -/
structure CompilationError where
  message : String
  location : Location

structure Program where
  name : String
  types : List (String × TypeDefinition)
  errors : List CompilationError
  documents : List Document

def Program.serviceCount (program : Program) : Nat :=
  (program.documents.flatMap (·.services)).length

/-- Whether a character can start an identifier. -/
def isIdentifierStart (c : Char) : Bool := c.isAlpha || c == '_'

/-- Whether a character can stand in an identifier. -/
def isIdentifierChar (c : Char) : Bool := c.isAlphanum || c == '_'

/-- Whether a text is an identifier: ASCII letters, digits and underscores, not starting with a
digit. -/
def isIdentifier (text : String) : Bool :=
  match text.toList with
  | [] => false
  | c :: rest => isIdentifierStart c && rest.all isIdentifierChar

end FunctionApp
