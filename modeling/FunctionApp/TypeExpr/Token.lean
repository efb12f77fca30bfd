import FunctionApp.Text.Blank

/-!
# Tokens of type expressions

A token is one of the ten symbols of the grammar or a name; a character that is neither a blank nor
the start of a token stands for itself, so that nothing of the text is lost. Each token carries the
byte offset at which it starts.
-/

namespace FunctionApp.TypeExpr

inductive Token where
  | name (text : String)
  | openParen
  | closeParen
  | openBracket
  | closeBracket
  | question
  | bar
  | ampersand
  | comma
  | less
  | greater
  /-- A character that starts no token. -/
  | other (c : Char)
deriving DecidableEq, Repr

/-- A token and the byte offset at which it starts. -/
structure Lexeme where
  token : Token
  offset : Nat
deriving DecidableEq, Repr

def isLetter (c : Char) : Bool :=
  ('a' ≤ c && c ≤ 'z') || ('A' ≤ c && c ≤ 'Z')

def isDigit (c : Char) : Bool := '0' ≤ c && c ≤ '9'

/-- Whether a name can start with a character. -/
def startsName (c : Char) : Bool := isLetter c || c == '_'

/-- Whether a name can go on with a character. -/
def continuesName (c : Char) : Bool := isLetter c || isDigit c || c == '_' || c == ':'

/-- The token of a character that starts no name. -/
def symbol : Char → Token
  | '(' => .openParen
  | ')' => .closeParen
  | '[' => .openBracket
  | ']' => .closeBracket
  | '?' => .question
  | '|' => .bar
  | '&' => .ampersand
  | ',' => .comma
  | '<' => .less
  | '>' => .greater
  | c => .other c

/-- The number of bytes of a text in UTF-8. -/
def byteLength (cs : List Char) : Nat := cs.foldr (fun c length => c.utf8Size + length) 0

/-- The tokens of a text that starts at a byte offset. -/
def scan (offset : Nat) (cs : List Char) : List Lexeme :=
  match cs with
  | [] => []
  | c :: rest =>
    if Text.isAsciiBlank c then scan (offset + c.utf8Size) rest
    else if startsName c then
      let name := c :: rest.takeWhile continuesName
      ⟨.name (String.ofList name), offset⟩ ::
        scan (offset + byteLength name) (rest.dropWhile continuesName)
    else ⟨symbol c, offset⟩ :: scan (offset + c.utf8Size) rest
termination_by cs.length
decreasing_by
  · simp
  · have := (List.dropWhile_sublist continuesName (l := rest)).length_le
    simp only [List.length_cons]
    omega
  · simp

attribute [grind =] scan

end FunctionApp.TypeExpr
