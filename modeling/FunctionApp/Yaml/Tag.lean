/-!
# Tags of YAML

A tag says what kind of value its node is. Its percent escapes may spell bytes that are no text, so
a tag is a list of bytes, and a zero byte ends it. A tag that starts with an exclamation mark is
local to the application and gives its values a name (`localName?`); the others belong to a schema
(`core`).
-/

namespace FunctionApp.Yaml

/-- A tag, spelled out. -/
structure Tag where
  bytes : List UInt8
  nonzero : bytes.all (· ≠ 0) = true
deriving DecidableEq, Repr

namespace Tag

/-- The tag that bytes spell, up to the first zero byte. -/
def ofBytes (bytes : List UInt8) : Tag := ⟨bytes.takeWhile (· ≠ 0), List.all_takeWhile⟩

/-- The tag that a text spells. -/
def ofText (text : String) : Tag := ofBytes text.toUTF8.data.toList

/-- The bytes of a tag spell it. -/
theorem ofBytes_bytes (tag : Tag) : ofBytes tag.bytes = tag := by
  obtain ⟨bytes, h⟩ := tag
  have : bytes.takeWhile (· ≠ 0) = bytes := by
    induction bytes with
    | nil => rfl
    | cons b rest ih => simp_all
  simpa [ofBytes] using this

/-- A tag with another one after it. -/
def append (a b : Tag) : Tag :=
  ⟨a.bytes ++ b.bytes, by rw [List.all_append, a.nonzero, b.nonzero]; rfl⟩

@[simp] theorem bytes_append (a b : Tag) : (a.append b).bytes = a.bytes ++ b.bytes := rfl

/-- The tag of a kind of value in the core schema. -/
def core (kind : String) : Tag := ofText ("tag:yaml.org,2002:" ++ kind)

/-- The exclamation mark with nothing after it. -/
def lone : Tag := ofText "!"

/-- The byte of the exclamation mark. -/
def mark : UInt8 := 0x21

def isEmpty (tag : Tag) : Bool := tag.bytes.isEmpty

/-- Whether a tag is local to the application. -/
def isLocal (tag : Tag) : Bool := tag.bytes.head? == some mark

/-- Bytes without an exclamation mark before them, unless it stands alone. -/
def withoutMark (bytes : List UInt8) : List UInt8 :=
  if bytes.head? == some mark && bytes ≠ [mark] then bytes.tail else bytes

/-- The name that a local tag gives, if its bytes are a text. The exclamation mark of the tag is not
part of it, nor is one at the start of the name. -/
def localName? (tag : Tag) : Option String :=
  if tag.isLocal then String.fromUTF8? ⟨(withoutMark (withoutMark tag.bytes)).toArray⟩ else none

end Tag

end FunctionApp.Yaml
