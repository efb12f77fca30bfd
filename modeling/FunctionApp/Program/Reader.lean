import FunctionApp.Program.Basic
import FunctionApp.Program.Written
import FunctionApp.TypeExpr.Parser

/-!
# Reading programs

A program that has the shape of a program file is read declaration by declaration: types first, then
the documents in their order. The first declaration that makes no sense is what the program is
refused for.
-/

namespace FunctionApp

inductive DeclarationFault where
  | badType (error : TypeExpr.SyntaxError)
  | unknownDefinition (kind : String)
  | ambiguousListener
  | unknownQualifier (word : String)
  | unknownParamKind (word : String)
  | unnamedFunction
  | emptyPathParameter
  | nestedListItem
  | nestedFieldValue

def DeclarationFault.message : DeclarationFault → String
  | .badType e =>
    "type '" ++ e.input ++ "' (offset " ++ toString e.offset ++ "): " ++ e.cause.message
  | .unknownDefinition kind => "unknown type definition kind '" ++ kind ++ "'"
  | .ambiguousListener => "service needs exactly one of 'listener' or 'listener_type'"
  | .unknownQualifier word => "unknown function qualifier '" ++ word ++ "'"
  | .unknownParamKind word => "unknown parameter kind '" ++ word ++ "'"
  | .unnamedFunction => "function needs a 'name' or an 'accessor'"
  | .emptyPathParameter => "empty path parameter '\x7b\x7d'"
  | .nestedListItem => "annotation list items must be literals"
  | .nestedFieldValue => "annotation field values must be literals or lists"

inductive ProgramFault where
  | yaml (fault : Yaml.Fault)
  | declaration (location : Location) (fault : DeclarationFault)

namespace Program

abbrev Reads (α : Type) := Except ProgramFault α

def refuse {α : Type} (location : Location) (fault : DeclarationFault) : Reads α :=
  .error (.declaration location fault)

/-- A type expression that stands at a location. -/
def readType (location : Location) (text : String) : Reads TypeExpr :=
  match TypeExpr.parse text with
  | .ok type => .ok type
  | .error e => refuse location (.badType e)

/-- A type expression that may be left out, for which `default` stands then. -/
def readTypeD (location : Location) (default : TypeExpr) : Option String → Reads TypeExpr
  | some text => readType location text
  | none => .ok default

/-- The place in a document that a position gives. -/
def place (document : String) (position : Written.Position) : Location :=
  ⟨document, position.line, position.column⟩

def readDefinition (name : String) (written : Written.TypeDefinition) : Reads TypeDefinition := do
  let location := Location.within ("type " ++ name)
  match written with
  | .record fields rest =>
    let fields ← fields.mapM fun (field, type) => return (field, ← readType location type)
    return .record ⟨fields, ← rest.mapM (readType location)⟩
  | .alias type => return .alias (← readType location type)
  | .kind "object" => return .object
  | .kind word => refuse location (.unknownDefinition word)

/-! ## Annotations -/

/-- The value of an annotation field; `null` stands for none. -/
def readFieldValue (location : Location) (value : Yaml.Value) : Reads (Option AnnotationValue) :=
  match value with
  | .null => .ok none
  | .sequence items => do
    let texts ← items.mapM fun item =>
      match item.literal? with
      | some text => .ok text
      | none => refuse location .nestedListItem
    return some (.list texts)
  | value =>
    match value.literal? with
    | some text => .ok (some (.literal text))
    | none => refuse location .nestedFieldValue

def annotationAt (document : String) (written : Written.Annotation) : Reads Annotation := do
  let location := place document written.position
  let fields ← written.fields.mapM fun (key, value) =>
    return (← readFieldValue location value).map fun value => (key, value)
  return ⟨written.name, fields.filterMap id, location⟩

def readAnnotations (document : String) (written : List Written.Annotation) :
    Reads (List Annotation) :=
  written.mapM (annotationAt document)

/-! ## Functions -/

/-- The text between the braces of a segment such as `{name}`. -/
def bracedName? (text : String) : Option String :=
  match text.toList with
  | '\x7b' :: rest =>
    if rest.getLast? = some '\x7d' then some (String.ofList rest.dropLast) else none
  | _ => none

def readSegment (location : Location) : Written.PathSegment → Reads PathSegment
  | .text text =>
    match bracedName? text with
    | some "" => refuse location .emptyPathParameter
    | some name => .ok (.param (some name) (.builtin .string))
    | none => .ok (.literal text)
  | .rest name type => return .rest name (← readTypeD location (.builtin .string) type)
  | .param name type => return .param name (← readTypeD location (.builtin .string) type)

/-- The qualifier that a word stands for. Without a word, an accessor makes a resource. -/
def readQualifier (location : Location) (default : Qualifier) (accessor : Option String) :
    Option String → Reads Qualifier
  | some "resource" => .ok .resource
  | some "remote" => .ok .remote
  | some "plain" => .ok .plain
  | some word => refuse location (.unknownQualifier word)
  | none => .ok (if accessor.isSome then .resource else default)

/-- A text with an underscore for every character that is not an ASCII letter or digit. -/
def underscored (text : String) : String :=
  text.map fun c => if c.isAlphanum then c else '_'

/-- The name of a function without one: its accessor and the literal segments of its path. -/
def derivedName (accessor : String) (path : List PathSegment) : String :=
  let words := path.filterMap fun
    | .literal text => some (underscored text)
    | _ => none
  String.intercalate "_" (accessor :: words)

def readParamKind (location : Location) : Option String → Reads ParamKind
  | none | some "required" => .ok .required
  | some "defaultable" => .ok .defaultable
  | some "rest" => .ok .rest
  | some word => refuse location (.unknownParamKind word)

def readParam (document : String) (written : Written.Param) : Reads Param := do
  let location := place document written.position
  let kind ← readParamKind location written.kind
  let type ← readType location written.type
  return ⟨written.name, kind, type, ← readAnnotations document written.annotations, location⟩

def readReturns (document : String) (written : Written.Returns) : Reads Returns := do
  let location := place document written.position
  let type ← readTypeD location .nil written.type
  return ⟨type, ← readAnnotations document written.annotations, location⟩

def readFunction (document : String) (default : Qualifier) (written : Written.Function) :
    Reads Function := do
  let location := place document written.position
  let qualifier ← readQualifier location default written.accessor written.qualifier
  let path ← written.path.mapM (readSegment location)
  let name ← match written.name, written.accessor with
    | some name, _ => .ok name
    | none, some accessor => .ok (derivedName accessor path)
    | none, none => refuse location .unnamedFunction
  let params ← written.params.mapM (readParam document)
  let returns ← match written.returns with
    | some returns => readReturns document returns
    | none => .ok ⟨.nil, [], location⟩
  return ⟨name, qualifier, written.accessor, path, params, returns, location⟩

/-! ## Documents -/

/-- The segments of a path, without empty ones. -/
def splitPath (path : String) : List String :=
  (Text.splitOnChar '/' path).filter fun segment => segment ≠ ""

def readService (document : String) (written : Written.Service) : Reads Service := do
  let location := place document written.position
  let listener ← match written.listener, written.listenerType with
    | some name, none => .ok (ListenerRef.variable name)
    | none, some type => .ok (ListenerRef.inline type)
    | _, _ => refuse location .ambiguousListener
  let functions ← written.functions.mapM (readFunction document .remote)
  let annotations ← readAnnotations document written.annotations
  return ⟨written.name, splitPath (written.path.getD ""), listener, annotations, functions,
    location⟩

def readDocument (written : Written.Document) : Reads Document := do
  let listeners := written.listeners.map fun l =>
    ⟨l.name, l.type, place written.name l.position⟩
  let services ← written.services.mapM (readService written.name)
  let functions ← written.functions.mapM (readFunction written.name .plain)
  return ⟨written.name, written.imports, listeners, services, functions⟩

/-- The program that is written. -/
def ofWritten (written : Written.Program) : Reads Program := do
  let types ← written.types.mapM fun (name, definition) =>
    return (name, ← readDefinition name definition)
  let errors := written.errors.map fun e => ⟨e.message, place e.document e.position⟩
  return ⟨written.name, types, errors, ← written.documents.mapM readDocument⟩

def read (source : String) : Reads Program :=
  match Written.Program.read source with
  | .ok written => ofWritten written
  | .error fault => .error (.yaml fault)

end Program

end FunctionApp
