import FunctionApp.Text.GraphemeExtend
import FunctionApp.Text.Unprintable

/-!
# Text literals of the generated code

A text literal stands in double quotation marks. Inside it the quotation mark and the backslash are
escaped, the four common controls have short names, and every other character that cannot be shown
or would join its neighbour is written by its number. The two halfwidth sound marks of Japanese do
extend a grapheme, but they are as wide as a letter and are written as they are.
-/

namespace FunctionApp.Text

/-- A number below sixteen as a lower case hexadecimal digit. -/
def hexDigit (n : Nat) : Char :=
  if n < 10 then Char.ofNat (48 + n) else Char.ofNat (87 + n)

/-- A number in lower case hexadecimal digits, without leading zeros. -/
def hexDigits (n : Nat) : String :=
  String.ofList (Nat.toDigits 16 n)

/-- Whether a character is one of the halfwidth sound marks. -/
def isHalfwidthSoundMark (c : Char) : Bool := c == '\uff9e' || c == '\uff9f'

/-- Whether a character joins the one before it. -/
def joinsPrevious (c : Char) : Bool := isGraphemeExtend c && !isHalfwidthSoundMark c

/-- How one character is written inside a text literal. -/
def escapeChar (c : Char) : String :=
  if c = '\x00' then "\\0"
  else if c = '\t' then "\\t"
  else if c = '\r' then "\\r"
  else if c = '\n' then "\\n"
  else if c = '\\' then "\\\\"
  else if c = '"' then "\\\""
  else if joinsPrevious c || isUnprintable c then "\\u\x7b" ++ hexDigits c.toNat ++ "\x7d"
  else c.toString

/-- A text as a literal of the generated code. -/
def literal (text : String) : String :=
  "\"" ++ String.join (text.toList.map escapeChar) ++ "\""

def listLiteral (texts : List String) : String :=
  "[" ++ String.intercalate ", " (texts.map literal) ++ "]"

end FunctionApp.Text
