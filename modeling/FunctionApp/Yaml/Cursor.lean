/-!
# A place in a YAML text

The text that is left, with the number of bytes before it in UTF-8, its line, and the number of
characters before it in that line, all counted from zero. A line ends with a line feed, a carriage
return, both together, or one of the Unicode line breaks.
-/

namespace FunctionApp.Yaml

def isSpaceOrTab (c : Char) : Bool := c == ' ' || c == '\t'

/-- Whether a character ends a line. -/
def isBreak (c : Char) : Bool :=
  c == '\n' || c == '\r' || c == '\u0085' || c == '\u2028' || c == '\u2029'

/-- Whether a text is at its end or starts with a space, a tab or a line break. -/
def atBlank : List Char → Bool
  | [] => true
  | c :: _ => isSpaceOrTab c || isBreak c

/-- Whether a text is at its end or starts with a line break. -/
def atBreak : List Char → Bool
  | [] => true
  | c :: _ => isBreak c

/-- Whether a character is a letter, a digit, an underscore or a hyphen. -/
def isWordChar (c : Char) : Bool :=
  ('0' ≤ c && c ≤ '9') || ('A' ≤ c && c ≤ 'Z') || ('a' ≤ c && c ≤ 'z') || c == '_' || c == '-'

/-- Whether a character may stand in a YAML text. -/
def isAllowed (c : Char) : Bool :=
  let n := c.toNat
  n == 0x9 || n == 0xA || n == 0xD || (0x20 ≤ n && n ≤ 0x7E) || n == 0x85 ||
    (0xA0 ≤ n && n ≤ 0xD7FF) || (0xE000 ≤ n && n ≤ 0xFFFD) || 0x10000 ≤ n

/-- The number of bytes that characters take in UTF-8. -/
def byteCount : List Char → Nat
  | [] => 0
  | c :: rest => c.utf8Size + byteCount rest

structure Cursor where
  rest : List Char
  offset : Nat
  line : Nat
  column : Nat

namespace Cursor

def start (rest : List Char) : Cursor := ⟨rest, 0, 0, 0⟩

/-- The place after so many characters of the same line. -/
def advance (n : Nat) (at_ : Cursor) : Cursor :=
  ⟨at_.rest.drop n, at_.offset + byteCount (at_.rest.take n), at_.line, at_.column + n⟩

/-- The place at `rest`, which is left of the text after some characters of the same line. -/
def moveTo (rest : List Char) (at_ : Cursor) : Cursor :=
  at_.advance (at_.rest.length - rest.length)

/-- The place after the characters of the same line that satisfy `p`. -/
def skipWhile (p : Char → Bool) (at_ : Cursor) : Cursor :=
  at_.advance (at_.rest.takeWhile p).length

/-- The place after the rest of the line. -/
def skipLine (at_ : Cursor) : Cursor := at_.skipWhile fun c => !isBreak c

/-- The text that a line break stands for and the place after it; elsewhere nothing. -/
def takeBreak (at_ : Cursor) : List Char × Cursor :=
  match at_.rest with
  | '\r' :: '\n' :: rest => (['\n'], ⟨rest, at_.offset + 2, at_.line + 1, 0⟩)
  | c :: rest =>
    if isBreak c then
      let text := if c == '\u2028' || c == '\u2029' then c else '\n'
      ([text], ⟨rest, at_.offset + c.utf8Size, at_.line + 1, 0⟩)
    else ([], at_)
  | [] => ([], at_)

/-- Whether a line of three dots or dashes starts here, which ends or starts a document. -/
def atDocumentMark (at_ : Cursor) : Bool :=
  at_.column == 0 &&
    match at_.rest with
    | '-' :: '-' :: '-' :: rest => atBlank rest
    | '.' :: '.' :: '.' :: rest => atBlank rest
    | _ => false

end Cursor

end FunctionApp.Yaml
