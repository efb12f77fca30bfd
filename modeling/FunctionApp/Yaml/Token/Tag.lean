import FunctionApp.Yaml.Cursor
import FunctionApp.Yaml.Fault
import FunctionApp.Yaml.Tag
import FunctionApp.Yaml.Token.Hex

/-!
# Tags of a YAML text

A tag is written as a handle, which stands for the start of the tag, and a suffix, or as a whole
between angle brackets. Each character stands for its own byte, and a group of percent escapes for
the bytes of one character (`takePercent`).
-/

namespace FunctionApp.Yaml

/-- Whether a character may stand in a tag; inside angle brackets some flow indicators may, too. -/
def isTagChar (bracketed : Bool) (c : Char) : Bool :=
  isWordChar c || ";/?:@&=+$.%!~*'()".toList.contains c || (bracketed && ",[]".toList.contains c)

/-- The byte of a percent escape, and the text after it. -/
def percentByte? : List Char → Option (Nat × List Char)
  | '%' :: cs => takeHex 2 0 cs
  | _ => none

/-- The number of bytes of a character that starts with a byte. -/
def sequenceLength? (first : Nat) : Option Nat :=
  if first < 0x80 then some 1
  else if 0xC0 ≤ first ∧ first < 0xE0 then some 2
  else if 0xE0 ≤ first ∧ first < 0xF0 then some 3
  else if 0xF0 ≤ first ∧ first < 0xF8 then some 4
  else none

/-- The bytes of as many percent escapes, each of which goes on with a character, and the text after
them. -/
def continuationBytes? : Nat → List Char → Option (List UInt8 × List Char)
  | 0, cs => some ([], cs)
  | n + 1, cs => do
    let (byte, cs) ← percentByte? cs
    if byte < 0x80 ∨ 0xC0 ≤ byte then failure
    let (more, cs) ← continuationBytes? n cs
    return (UInt8.ofNat byte :: more, cs)

/-- The bytes of the percent escapes for one character, and the text after them. The first byte says
how many follow, but whether there is such a character does not matter. -/
def takePercent (cs : List Char) : Option (List UInt8 × List Char) := do
  let (first, cs) ← percentByte? cs
  let length ← sequenceLength? first
  let (more, cs) ← continuationBytes? (length - 1) cs
  return (UInt8.ofNat first :: more, cs)

/-- The bytes that the characters of a tag stand for, and the text after them. -/
def takeTagBytes (bracketed : Bool) : Nat → List Char → Except Fault (List UInt8 × List Char)
  | 0, cs => .ok ([], cs)
  | fuel + 1, cs =>
    match cs with
    | [] => .ok ([], [])
    | c :: rest =>
      if c == '%' then
        match takePercent cs with
        | none => .error .badTag
        | some (bytes, rest) => do
          let (more, rest) ← takeTagBytes bracketed fuel rest
          return (bytes ++ more, rest)
      else if isTagChar bracketed c then do
        let (more, rest) ← takeTagBytes bracketed fuel rest
        return (UInt8.ofNat c.toNat :: more, rest)
      else .ok ([], cs)

/-- The start of a tag: an exclamation mark, the word after it, and the exclamation mark that makes
them a handle, if it follows. -/
def takeTagHandle (cs : List Char) : Except Fault (List Char × List Char) :=
  match cs with
  | '!' :: rest =>
    let word := rest.takeWhile isWordChar
    match rest.dropWhile isWordChar with
    | '!' :: rest => .ok ('!' :: word ++ ['!'], rest)
    | rest => .ok ('!' :: word, rest)
  | _ => .error .badTag

/-- The handle and the suffix of a tag, and the text after it. A whole tag has no handle, nor has
the exclamation mark that stands alone. -/
def takeTag (cs : List Char) : Except Fault (String × Tag × List Char) := do
  match cs with
  | '!' :: '<' :: cs =>
    let (bytes, cs) ← takeTagBytes true cs.length cs
    match cs with
    | '>' :: cs =>
      if bytes.isEmpty then .error .badTag
      return ("", .ofBytes bytes, cs)
    | _ => .error .badTag
  | _ =>
    let (handle, cs) ← takeTagHandle cs
    let (bytes, cs) ← takeTagBytes false cs.length cs
    if 1 < handle.length ∧ handle.getLast? = some '!' then
      if bytes.isEmpty then .error .badTag
      return (String.ofList handle, .ofBytes bytes, cs)
    else
      let word := (handle.drop 1).map fun c => UInt8.ofNat c.toNat
      let suffix := Tag.ofBytes (word ++ bytes)
      if suffix.isEmpty then return ("", .lone, cs)
      return ("!", suffix, cs)

end FunctionApp.Yaml
