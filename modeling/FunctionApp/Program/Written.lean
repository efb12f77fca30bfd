import FunctionApp.Yaml.Decode

/-!
# Programs as they are written

The shape of a program file: every type and every word that has a choice of meanings is still a
text. A file has this shape or is refused as a whole, before any of its texts is looked at.
-/

namespace FunctionApp.Written

open Yaml Yaml.Decode

/-- A line and a column, each zero if it is not written. -/
structure Position where
  line : Nat
  column : Nat

structure Annotation where
  name : String
  fields : List (String × Value)
  position : Position

/-- A segment of a path: a text, or a mapping with a `rest` name or an optional `param` name. -/
inductive PathSegment where
  | text (text : String)
  | rest (name : String) (type : Option String)
  | param (name : Option String) (type : Option String)

structure Param where
  name : String
  type : String
  kind : Option String
  annotations : List Annotation
  position : Position

structure Returns where
  type : Option String
  annotations : List Annotation
  position : Position

structure Function where
  name : Option String
  qualifier : Option String
  accessor : Option String
  path : List PathSegment
  params : List Param
  returns : Option Returns
  position : Position

structure Listener where
  name : String
  type : String
  position : Position

structure Service where
  name : Option String
  path : Option String
  listener : Option String
  listenerType : Option String
  annotations : List Annotation
  functions : List Function
  position : Position

structure Document where
  name : String
  imports : List (String × String)
  listeners : List Listener
  services : List Service
  functions : List Function

structure CompilationError where
  message : String
  document : String
  position : Position

/-- A type definition: a record, an alias, or the word of another kind. -/
inductive TypeDefinition where
  | record (fields : List (String × String)) (rest : Option String)
  | alias (type : String)
  | kind (word : String)

structure Program where
  name : String
  types : List (String × TypeDefinition)
  errors : List CompilationError
  documents : List Document

/-! ## Choices between shapes -/

/-- The texts under the keys of a mapping of texts: each key at its first place with its last text.
-/
def texts? : Value → Option (List (String × String))
  | .mapping pairs => do
    let read ← pairs.mapM fun (key, value) => return (← key.text?, ← value.text?)
    return read.foldl (fun done (key, text) => entries.insert done key text) []
  | _ => none

/-- The fields and the rest type of a record: a mapping, or a list of the two. -/
def recordBody? (value : Value) : Option TypeDefinition := do
  let fields ← match value with
    | .sequence items => if items.length ≤ 2 then some (["fields", "rest"].zip items) else none
    | value => Choice.fields? ["fields", "rest"] value
  let named ← match fields.lookup "fields" with
    | none => some []
    | some value => texts? value
  return .record named (← Choice.optionalText? (fields.lookup "rest"))

/-- A type definition, of which a record is the first choice and an alias the second. -/
def TypeDefinition.ofValue? (value : Value) : Option TypeDefinition :=
  let member? := fun key => (Choice.fields? [key] value).bind (·.lookup key)
  ((member? "record").bind recordBody?)
    |>.or (((member? "alias").bind Value.text?).map .alias)
    |>.or (value.text?.map .kind)

/-- A path segment, of which a text is the first choice and a rest the second. -/
def PathSegment.ofValue? (value : Value) : Option PathSegment :=
  let rest? := do
    let fields ← Choice.fields? ["rest", "type"] value
    return PathSegment.rest (← (← fields.lookup "rest").text?)
      (← Choice.optionalText? (fields.lookup "type"))
  let param? := do
    let fields ← Choice.fields? ["param", "type"] value
    return PathSegment.param (← Choice.optionalText? (fields.lookup "param"))
      (← Choice.optionalText? (fields.lookup "type"))
  (value.text?.map .text).or (rest?.or param?)

/-- Reads a choice between shapes. -/
def chosen {α : Type} (ofValue? : Value → Option α) (node : Node) : Decode α := do
  match ofValue? (← choice node) with
  | some result => return result
  | none => fail (.expected "one of the shapes of a choice")

/-! ## Records of fields -/

def position (fields : Fields) : Decode Position := do
  return ⟨← withDefault fields "line" 0 natural, ← withDefault fields "column" 0 natural⟩

def optionalText (fields : Fields) (key : String) : Decode (Option String) :=
  withDefault fields key none (optional text)

def annotation : Node → Decode Annotation :=
  record ["name", "fields", "line", "column"] fun fields => do
    return ⟨← required fields "name" text, ← withDefault fields "fields" [] (entries value),
      ← position fields⟩

def annotations (fields : Fields) : Decode (List Annotation) :=
  withDefault fields "annotations" [] (items annotation)

def param : Node → Decode Param :=
  record ["name", "type", "kind", "annotations", "line", "column"] fun fields => do
    return ⟨← required fields "name" text, ← required fields "type" text,
      ← optionalText fields "kind", ← annotations fields, ← position fields⟩

def returns : Node → Decode Returns :=
  record ["type", "annotations", "line", "column"] fun fields => do
    return ⟨← optionalText fields "type", ← annotations fields, ← position fields⟩

def function : Node → Decode Function :=
  record ["name", "qualifier", "accessor", "path", "params", "returns", "line", "column"]
    fun fields => do
      return ⟨← optionalText fields "name", ← optionalText fields "qualifier",
        ← optionalText fields "accessor",
        ← withDefault fields "path" [] (items (chosen PathSegment.ofValue?)),
        ← withDefault fields "params" [] (items param),
        ← withDefault fields "returns" none (optional returns), ← position fields⟩

def listener : Node → Decode Listener :=
  record ["name", "type", "line", "column"] fun fields => do
    return ⟨← required fields "name" text, ← required fields "type" text, ← position fields⟩

def service : Node → Decode Service :=
  record
    ["name", "path", "listener", "listener_type", "annotations", "functions", "line", "column"]
    fun fields => do
      return ⟨← optionalText fields "name", ← optionalText fields "path",
        ← optionalText fields "listener", ← optionalText fields "listener_type",
        ← annotations fields, ← withDefault fields "functions" [] (items function),
        ← position fields⟩

def document : Node → Decode Document :=
  record ["name", "imports", "listeners", "services", "functions"] fun fields => do
    return ⟨← required fields "name" text, ← withDefault fields "imports" [] (entries text),
      ← withDefault fields "listeners" [] (items listener),
      ← withDefault fields "services" [] (items service),
      ← withDefault fields "functions" [] (items function)⟩

def compilationError : Node → Decode CompilationError :=
  record ["message", "document", "line", "column"] fun fields => do
    return ⟨← required fields "message" text, ← withDefault fields "document" "" text,
      ← position fields⟩

def program : Node → Decode Program :=
  record ["name", "types", "errors", "documents"] fun fields => do
    return ⟨← required fields "name" text,
      ← withDefault fields "types" [] (entries (chosen TypeDefinition.ofValue?)),
      ← withDefault fields "errors" [] (items compilationError),
      ← withDefault fields "documents" [] (items document)⟩

def Program.read (source : String) : Except Fault Program := decode program source

end FunctionApp.Written
