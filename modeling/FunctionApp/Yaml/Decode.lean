import FunctionApp.Yaml.Node.Reader
import FunctionApp.Yaml.Scalar

/-!
# Reading values out of nodes

A reader takes a node to a value of its own type. An alias is followed where a reader meets it, and
a node that no reader asks for is never looked at. What a reader accepts:

* a text takes any scalar as it is written;
* a list, a mapping or a record of fields takes a collection, or a plain scalar with nothing in it;
* an optional value takes `null` and nothing at all as absent;
* a record refuses a field that is given twice, and a mapping keeps the last value of a key;
* a choice between shapes takes no tags.
-/

namespace FunctionApp.Yaml

/-- Where a reader stands in a document. -/
structure Scope where
  document : Document
  /-- How many more collections may be entered. -/
  depth : Nat

/-- A reader's result. The state counts the aliases that were followed. -/
abbrev Decode := ReaderT Scope (StateT Nat (Except Fault))

namespace Decode

variable {α : Type}

def fail (fault : Fault) : Decode α := fun _ _ => .error fault

def lift (result : Except Fault α) : Decode α := fun _ count =>
  result.map fun value => (value, count)

/-- The node that an alias stands for; any other node itself. -/
def follow : Node → Decode Node
  | .alias slot _ => do
    let count ← get
    set (count + 1)
    let document := (← read).document
    if document.aliasLimit < count + 1 then fail .tooManyAliases
    match document.anchored? slot with
    | some node => return node
    | none => fail (.unknownAnchor "")
  | node => return node

/-- A reader inside one more collection. -/
def enter (body : Decode α) : Decode α := do
  match (← read).depth with
  | 0 => fail .tooDeep
  | depth + 1 => withReader (fun scope => { scope with depth := depth }) body

/-- Whether a node is a plain scalar with nothing in it. -/
def isBlank (node : Node) : Bool :=
  match node.scalar? with
  | some (_, .plain, "") => true
  | _ => false

/-! ## Scalars -/

def text (node : Node) : Decode String := do
  match (← follow node).scalar? with
  | some (_, _, text) => return text
  | none => fail (.expected "a string")

/-- The text of a scalar that may be a number or a boolean: a plain one, or a literal block under
the tag of the core schema. -/
def bare (kind : String) (node : Node) : Decode String := do
  match (← follow node).scalar? with
  | some (p, style, text) =>
    if style = .plain || (style = .literal && p.tag = some (.core kind)) then
      return text
    else fail (.expected kind)
  | none => fail (.expected kind)

def natural (node : Node) : Decode Nat := do
  match Scalar.natural? (← bare "int" node).toList with
  | some n => if n < Nat.pow 2 32 then return n else fail (.expected "a smaller integer")
  | none => fail (.expected "an unsigned integer")

def boolean (node : Node) : Decode Bool := do
  match Scalar.bool? (← bare "bool" node) with
  | some value => return value
  | none => fail (.expected "a boolean")

def optional (body : Node → Decode α) (node : Node) : Decode (Option α) := do
  let node ← follow node
  let present ← match node.scalar? with
    | some (p, .plain, text) =>
      match p.tag with
      | some tag =>
        if tag ≠ .core "null" then pure true
        else if Scalar.isNull text then pure false
        else fail (.expected "null")
      | none => pure (text ≠ "" && !Scalar.isNull text)
    | _ => pure true
  if present then return some (← body node) else return none

/-! ## Collections -/

def items (body : Node → Decode α) (node : Node) : Decode (List α) := do
  match ← follow node with
  | .sequence _ nodes => enter (nodes.mapM body)
  | node => if isBlank node then return [] else fail (.expected "a sequence")

/-- The entries of a mapping whose keys are texts: each key at its first place with its last value.
-/
def entries (body : Node → Decode α) (node : Node) : Decode (List (String × α)) := do
  match ← follow node with
  | .mapping _ pairs => enter do
    let read ← pairs.mapM fun (key, value) => return (← text key, ← body value)
    return read.foldl (fun done (key, value) => insert done key value) []
  | node => if isBlank node then return [] else fail (.expected "a map")
where
  insert (done : List (String × α)) (key : String) (value : α) : List (String × α) :=
    if (done.lookup key).isSome then done.map fun (k, v) => if k = key then (k, value) else (k, v)
    else done ++ [(key, value)]

abbrev Fields := List (String × Node)

/-- Reads a record out of its fields, of which only the known ones count. -/
def record (known : List String) (body : Fields → Decode α) (node : Node) : Decode α := do
  match ← follow node with
  | .mapping _ pairs => enter do
    let named ← pairs.mapM fun (key, value) => return (← text key, value)
    let fields := named.filter fun (name, _) => known.contains name
    match known.find? fun name => 1 < (fields.map (·.1)).count name with
    | some name => fail (.repeatedField name)
    | none => body fields
  | node => if isBlank node then body [] else fail (.expected "a struct")

/-- A field that must be there. -/
def required (fields : Fields) (name : String) (body : Node → Decode α) : Decode α :=
  match fields.lookup name with
  | some node => body node
  | none => fail (.missingField name)

/-- A field that has a value of its own where it is left out. -/
def withDefault (fields : Fields) (name : String) (default : α) (body : Node → Decode α) :
    Decode α :=
  match fields.lookup name with
  | some node => body node
  | none => return default

/-! ## Values of any shape -/

/-- A value under the name that a tag of the application gives, if there is one. -/
def underTag (choice : Bool) (p : Properties) (value : Value) : Decode Value :=
  match p.tag.bind Tag.localName? with
  | none => return value
  | some name => if choice then fail (.expected "no tag") else return .tagged name value

/-- What a scalar stands for, apart from a tag of the application. -/
def scalarValue (p : Properties) (style : Style) (text : String) : Decode Value :=
  match p.tag.filter fun tag => !tag.isLocal with
  | some tag => lift (Scalar.resolveAs tag text)
  | none => if style = .plain then lift (Scalar.resolve text) else return .text text

/-- Whether no two keys are alike. -/
def distinctKeys : List (Value × Value) → Bool
  | [] => true
  | (key, _) :: rest => !rest.any (fun (other, _) => key.alike other) && distinctKeys rest

/-- What a node stands for, where `inner` reads the nodes inside it, if any more collection may be
entered. With `choice` a tag of the application is refused; without it, keys must differ. -/
def valueWith (choice : Bool) (inner : Option (Node → Decode Value)) (node : Node) :
    Decode Value := do
  match ← follow node, inner with
  | .alias _ _, _ => fail .unexpectedToken
  | .scalar p style text _, _ => underTag choice p (← scalarValue p style text)
  | .absent p, _ => underTag choice p (← scalarValue p .plain "")
  | .sequence p nodes, some inner => underTag choice p (.sequence (← nodes.mapM inner))
  | .mapping p pairs, some inner =>
    let entries ← pairs.mapM fun (key, value) => return (← inner key, ← inner value)
    if !choice && !distinctKeys entries then fail .repeatedKey
    underTag choice p (.mapping entries)
  | _, none => fail .tooDeep

/-- What a node stands for, inside at most `depth` more collections. -/
def valueWithin (choice : Bool) : Nat → Node → Decode Value
  | 0 => valueWith choice none
  | depth + 1 => valueWith choice (some (valueWithin choice depth))

def value (node : Node) : Decode Value := do
  valueWithin false (← read).depth node

/-- What a node stands for, as the ground of a choice between shapes. -/
def choice (node : Node) : Decode Value := do
  valueWithin true (← read).depth node

end Decode

/-- Reads the one document of a text. At most 128 collections may stand inside each other. -/
def decode {α : Type} (body : Node → Decode α) (text : String) : Except Fault α := do
  let document ← Document.read text
  let (value, _) ← body document.root ⟨document, 128⟩ 0
  return value

/-! ## Choices between shapes

A choice is made on a value: a reader of one shape says whether the value has it. -/

namespace Choice

/-- The fields of a value that has the shape of a record: a key is the name of a field or its
position, which has no minus sign, and no known field is given twice. Keys of other fields do not
count. -/
def fields? (known : List String) : Value → Option (List (String × Value))
  | .mapping entries => do
    let named ← entries.mapM fun (key, value) =>
      match key with
      | .text name => some (name, value)
      | .int n false => some (known.getD n.toNat "", value)
      | _ => none
    let fields := named.filter fun (name, _) => known.contains name
    if known.all fun name => (fields.map (·.1)).count name ≤ 1 then some fields else none
  | _ => none

/-- A text that may be absent. -/
def optionalText? : Option Value → Option (Option String)
  | none => some none
  | some .null => some none
  | some value => value.text?.map some

end Choice

end FunctionApp.Yaml
