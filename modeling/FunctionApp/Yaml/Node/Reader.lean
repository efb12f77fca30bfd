import FunctionApp.Yaml.Node
import FunctionApp.Yaml.Token.Scan

/-!
# The node of a token list

The grammar of YAML over tokens, one function for each place of a collection. Where a key, a value
or an entry may be left out, the empty scalar stands for it. A text must hold exactly one document.
-/

namespace FunctionApp.Yaml

/-- The tokens that are left, and the names known so far. -/
structure Reading where
  tokens : List Token
  /-- What the handles of tags stand for. -/
  handles : List (String × Tag)
  /-- The slots of the anchors. -/
  slots : List (String × Nat)

/-- A step that takes tokens. -/
abbrev Read := StateT Reading (Except Fault)

namespace Read

def fail {α : Type} (fault : Fault) : Read α := fun _ => .error fault

/-- The next token, which stays. -/
def peek : Read (Option Token) := return (← get).tokens.head?

def skip : Read Unit := modify fun r => { r with tokens := r.tokens.tail }

/-- Takes the next token if it is the given one, and says whether it was. -/
def skipIf (token : Token) : Read Bool := do
  if (← peek) = some token then
    skip
    return true
  else return false

/-- Whether the next token is one of the given ones. -/
def nextIn (tokens : List Token) : Read Bool := return (← peek).any tokens.contains

/-- The slot for an anchor: as many as there are names so far, whether or not its name is new. -/
def takeSlot (name : String) : Read Nat := do
  let r ← get
  let slot := r.slots.length
  let slots :=
    if (r.slots.lookup name).isSome then
      r.slots.map fun (n, s) => if n = name then (n, slot) else (n, s)
    else r.slots ++ [(name, slot)]
  set { r with slots := slots }
  return slot

/-- The slot that an alias names. -/
def slotOf (name : String) : Read Nat := do
  match (← get).slots.lookup name with
  | some slot => return slot
  | none => fail (.unknownAnchor name)

/-- A tag spelled out. -/
def spellTag (handle : String) (suffix : Tag) : Read Tag := do
  if handle = "" then return suffix
  match (← get).handles.lookup handle with
  | some expansion => return expansion.append suffix
  | none => fail (.unknownTagHandle handle)

def tag? : Read (Option Tag) := do
  match ← peek with
  | some (.tag handle suffix) =>
    skip
    return some (← spellTag handle suffix)
  | _ => return none

def anchor? : Read (Option String) := do
  match ← peek with
  | some (.anchor name) =>
    skip
    return some name
  | _ => return none

/-- Takes an anchor and a tag, in either order. -/
def properties : Read Properties := do
  let first ← anchor?
  let tag ← tag?
  let anchor ← if first.isSome then pure first else anchor?
  match anchor with
  | none => return ⟨none, tag⟩
  | some name => return ⟨some (← takeSlot name), tag⟩

mutual

/-- Takes a node. `block` says that block collections may stand here, and `indentless` that the
entries of a list may stand here without indentation. -/
def node (block indentless : Bool) : Nat → Read Node
  | 0 => fail .unexpectedToken
  | fuel + 1 => do
    if let some (.alias name line) ← peek then
      skip
      return .alias (← slotOf name) line
    let p ← properties
    match ← peek with
    | some .blockEntry =>
      if indentless then return .sequence p (← indentlessItems fuel) else absent p
    | some (.scalar text style line) =>
      skip
      return .scalar p style text line
    | some .flowSequenceStart =>
      skip
      return .sequence p (← flowItems true fuel)
    | some .flowMappingStart =>
      skip
      return .mapping p (← flowEntries true fuel)
    | some .blockSequenceStart =>
      if !block then return ← absent p
      skip
      return .sequence p (← blockItems fuel)
    | some .blockMappingStart =>
      if !block then return ← absent p
      skip
      return .mapping p (← blockEntries fuel)
    | _ => absent p

/-- The empty scalar of the properties, of which there must be some. -/
def absent (p : Properties) : Read Node :=
  if p.isEmpty then fail .unexpectedToken else return .absent p

/-- Takes a node, which is the empty scalar if one of the given tokens comes next. -/
def nodeUnless (ends : List Token) (block indentless : Bool) : Nat → Read Node
  | 0 => fail .unexpectedToken
  | fuel + 1 => do
    if ← nextIn ends then return .empty
    node block indentless fuel

/-- Takes the value after a key, which is the empty scalar without a colon. -/
def valueUnless (ends : List Token) (block : Bool) : Nat → Read Node
  | 0 => fail .unexpectedToken
  | fuel + 1 => do
    if ← skipIf .value then nodeUnless ends block block fuel else return .empty

def blockItems : Nat → Read (List Node)
  | 0 => fail .unexpectedToken
  | fuel + 1 => do
    if ← skipIf .blockEntry then
      let item ← nodeUnless [.blockEntry, .blockEnd] true false fuel
      return item :: (← blockItems fuel)
    else if ← skipIf .blockEnd then return []
    else fail .unexpectedToken

/-- Takes the entries of a list that stands at the indentation of the mapping around it. -/
def indentlessItems : Nat → Read (List Node)
  | 0 => fail .unexpectedToken
  | fuel + 1 => do
    if ← skipIf .blockEntry then
      let item ← nodeUnless [.blockEntry, .key, .value, .blockEnd] true false fuel
      return item :: (← indentlessItems fuel)
    else return []

def blockEntries : Nat → Read (List (Node × Node))
  | 0 => fail .unexpectedToken
  | fuel + 1 => do
    if ← skipIf .key then
      let key ← nodeUnless [.key, .value, .blockEnd] true true fuel
      let value ← valueUnless [.key, .value, .blockEnd] true fuel
      return (key, value) :: (← blockEntries fuel)
    else if ← skipIf .blockEnd then return []
    else fail .unexpectedToken

def flowItems (first : Bool) : Nat → Read (List Node)
  | 0 => fail .unexpectedToken
  | fuel + 1 => do
    if ← skipIf .flowSequenceEnd then return []
    unless first do
      if !(← skipIf .flowEntry) then fail .unexpectedToken
    if ← skipIf .key then
      let pair ← flowPair fuel
      return .mapping .none [pair] :: (← flowItems false fuel)
    else if ← skipIf .flowSequenceEnd then return []
    else
      let item ← node false false fuel
      return item :: (← flowItems false fuel)

/-- Takes the key and the value of a mapping with one entry inside a flow list. A token that can
start neither is dropped. -/
def flowPair : Nat → Read (Node × Node)
  | 0 => fail .unexpectedToken
  | fuel + 1 => do
    let key ←
      if ← nextIn [.value, .flowEntry, .flowSequenceEnd] then do
        skip
        pure .empty
      else node false false fuel
    return (key, ← valueUnless [.flowEntry, .flowSequenceEnd] false fuel)

def flowEntries (first : Bool) : Nat → Read (List (Node × Node))
  | 0 => fail .unexpectedToken
  | fuel + 1 => do
    if ← skipIf .flowMappingEnd then return []
    unless first do
      if !(← skipIf .flowEntry) then fail .unexpectedToken
    if ← skipIf .key then
      let key ← nodeUnless [.value, .flowEntry, .flowMappingEnd] false false fuel
      let value ← valueUnless [.flowEntry, .flowMappingEnd] false fuel
      return (key, value) :: (← flowEntries false fuel)
    else if ← skipIf .flowMappingEnd then return []
    else
      let key ← node false false fuel
      return (key, .empty) :: (← flowEntries false fuel)

end

/-! ## Documents -/

/-- The handles of tags that need no directive. -/
def defaultHandles : List (String × Tag) := [("!", .lone), ("!!", .core "")]

/-- Takes the directives of a document: at most one version, which is 1.1 or 1.2, and at most one
meaning of each handle. Says whether there were any. -/
def directives (versioned : Bool) : Nat → Read Unit
  | 0 => fail .unexpectedToken
  | fuel + 1 => do
    match ← peek with
    | some (.version major minor) =>
      if versioned ∨ major ≠ 1 ∨ (minor ≠ 1 ∧ minor ≠ 2) then fail .badDirective
      skip
      directives true fuel
    | some (.tagDirective handle expansion) =>
      let r ← get
      if (r.handles.lookup handle).isSome then fail .badDirective
      set { r with tokens := r.tokens.tail, handles := r.handles ++ [(handle, expansion)] }
      directives versioned fuel
    | _ => return ()

def isDirective : Token → Bool
  | .version _ _ | .tagDirective _ _ => true
  | _ => false

/-- Whether a token cannot belong to the content of a document. -/
def endsContent (token : Token) : Bool :=
  isDirective token || token == .documentStart || token == .documentEnd

/-- Takes the document at the start. -/
def document (fuel : Nat) : Read Node := do
  let next ← peek
  if next.isNone then fail .noDocument
  if next.any fun t => isDirective t || t == .documentStart then
    directives false fuel
    modify fun r => { r with handles := r.handles ++ defaultHandles }
    if !(← skipIf .documentStart) then fail .unexpectedToken
    match ← peek with
    | none => return .empty
    | some token => if endsContent token then return .empty else node true false fuel
  else
    modify fun r => { r with handles := defaultHandles }
    node true false fuel

end Read

/-- The one document of a text. -/
def Document.read (text : String) : Except Fault Document := do
  let tokens ← tokens text.toList
  let (root, r) ← (Read.document (4 * tokens.length + 16)).run ⟨tokens, [], []⟩
  if (r.tokens.dropWhile (· == .documentEnd)).isEmpty then return .ofNode root
  else .error .severalDocuments

end FunctionApp.Yaml
