import FunctionApp.Yaml.Fault
import FunctionApp.Yaml.Token

/-!
# Nodes of YAML

A document is a tree of scalars, lists and mappings, in which an alias stands for the node that
carries the anchor it names. An anchor takes a numbered slot. Two anchors can come to share a slot
when a name is given twice, and an alias then stands for the later of their nodes
(`Document.anchored?`).
-/

namespace FunctionApp.Yaml

/-- What may be written before a node. -/
structure Properties where
  /-- The slot of its anchor. -/
  anchor : Option Nat
  /-- Its tag, spelled out. -/
  tag : Option Tag
deriving DecidableEq, Repr

namespace Properties

def none : Properties := ⟨.none, .none⟩

/-- Whether nothing is written. -/
def isEmpty (p : Properties) : Bool := p.anchor.isNone && p.tag.isNone

end Properties

inductive Node where
  | alias (slot line : Nat)
  | scalar (properties : Properties) (style : Style) (text : String) (line : Nat)
  /-- A scalar of which nothing is written but its properties. -/
  | absent (properties : Properties)
  | sequence (properties : Properties) (items : List Node)
  | mapping (properties : Properties) (entries : List (Node × Node))
deriving Inhabited

namespace Node

/-- The scalar that stands where nothing is written. -/
def empty : Node := .absent .none

/-- The properties, the style and the text of a scalar. Where nothing is written, the scalar is plain
and has no character. -/
def scalar? : Node → Option (Properties × Style × String)
  | .scalar p style text _ => some (p, style, text)
  | .absent p => some (p, .plain, "")
  | _ => none

/-- The line on which a scalar or an alias is written. -/
def line? : Node → Option Nat
  | .alias _ line | .scalar _ _ _ line => some line
  | _ => none

/-- The slot that a node takes. -/
def anchor? : Node → Option Nat
  | .alias _ _ => none
  | .scalar p _ _ _ | .absent p | .sequence p _ | .mapping p _ => p.anchor

mutual

/-- The number of marks that a node consists of: one for a scalar or an alias, and two for the ends
of a collection. -/
def weight : Node → Nat
  | .alias _ _ | .scalar _ _ _ _ | .absent _ => 1
  | .sequence _ items => weightOfItems items + 2
  | .mapping _ entries => weightOfEntries entries + 2

def weightOfItems : List Node → Nat
  | [] => 0
  | item :: rest => weight item + weightOfItems rest

def weightOfEntries : List (Node × Node) → Nat
  | [] => 0
  | (key, value) :: rest => weight key + weight value + weightOfEntries rest

end

mutual

/-- The nodes inside a node that take a slot, and the node itself if it does, in the order in which
they start. -/
def anchored : Node → List (Nat × Node)
  | .alias _ _ => []
  | .scalar p style text line =>
    (p.anchor.map fun slot => (slot, Node.scalar p style text line)).toList
  | .absent p => (p.anchor.map fun slot => (slot, Node.absent p)).toList
  | .sequence p items =>
    (p.anchor.map fun slot => (slot, Node.sequence p items)).toList ++ anchoredItems items
  | .mapping p entries =>
    (p.anchor.map fun slot => (slot, Node.mapping p entries)).toList ++ anchoredEntries entries

def anchoredItems : List Node → List (Nat × Node)
  | [] => []
  | item :: rest => anchored item ++ anchoredItems rest

def anchoredEntries : List (Node × Node) → List (Nat × Node)
  | [] => []
  | (key, value) :: rest => anchored key ++ anchored value ++ anchoredEntries rest

end

end Node

/-- A document with the nodes that take a slot, the one that starts last first. -/
structure Document where
  root : Node
  anchored : List (Nat × Node)

namespace Document

def ofNode (root : Node) : Document := ⟨root, root.anchored.reverse⟩

/-- The node in a slot. -/
def anchored? (document : Document) (slot : Nat) : Option Node := document.anchored.lookup slot

/-- How many aliases may be followed while a document is read. -/
def aliasLimit (document : Document) : Nat := 100 * document.root.weight

end Document

end FunctionApp.Yaml
