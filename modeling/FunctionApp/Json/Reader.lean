import FunctionApp.Json.Basic

/-!
# Reading JSON text

The reader accepts one value between blanks, nested at most 127 arrays and objects deep. An object
whose text repeats a key keeps the key's first place and its last value. An integer that fits in 64
bits with or without a sign stays an integer; every other number is read into a double by scaling
the first digits that fit in 64 bits, which rounds once for the digits and once for each power of
ten.
-/

namespace FunctionApp.Json

inductive Fault where
  | endOfText
  | unexpected (c : Char)
  | trailing
  | badNumber
  | numberTooLarge
  | badEscape
  | controlCharacter
  | tooDeep
deriving DecidableEq, Repr

def Fault.message : Fault → String
  | .endOfText => "EOF while parsing a value"
  | .unexpected c => "unexpected character '" ++ c.toString ++ "'"
  | .trailing => "trailing characters"
  | .badNumber => "invalid number"
  | .numberTooLarge => "number out of range"
  | .badEscape => "invalid escape"
  | .controlCharacter => "control character found while parsing a string"
  | .tooDeep => "recursion limit exceeded"

/-- Whether a character may stand between the tokens of JSON. -/
def isBlank (c : Char) : Bool :=
  c == ' ' || c == '\n' || c == '\t' || c == '\r'

/-- The text after its leading blanks. -/
def skipBlanks (cs : List Char) : List Char := cs.dropWhile isBlank

/-! ## Numbers -/

/-- The value of a decimal digit. -/
def digit? (c : Char) : Option Nat :=
  if '0' ≤ c ∧ c ≤ '9' then some (c.toNat - '0'.toNat) else none

def maxWord : Nat := Nat.pow 2 64 - 1

/-- Digits gathered into a 64 bit significand: its value, how many digits went into it, how many
were left over because it was full, and the text after them all. -/
def readDigits (significand taken dropped : Nat) : List Char → Nat × Nat × Nat × List Char
  | [] => (significand, taken, dropped, [])
  | c :: rest =>
    match digit? c with
    | none => (significand, taken, dropped, c :: rest)
    | some d =>
      if dropped = 0 ∧ significand * 10 + d ≤ maxWord then
        readDigits (significand * 10 + d) (taken + 1) 0 rest
      else readDigits significand taken (dropped + 1) rest

/-- The double `10 ^ n`, correctly rounded. -/
def powerOfTen (n : Nat) : Double := Double.ofDecimal false 1 n

/-- A double scaled by a power of ten, in at most `steps` steps of 308 decimal places down and one
last step. Three steps suffice for any double made of 64 bits, since two leave zero. -/
def scale : Nat → Double → Int → Except Fault Double
  | 0, d, _ => .ok d
  | steps + 1, d, exponent =>
    if exponent.natAbs ≤ 308 then
      if 0 ≤ exponent then
        let scaled := d.mul (powerOfTen exponent.natAbs)
        if scaled.isFinite then .ok scaled else .error .numberTooLarge
      else .ok (d.div (powerOfTen exponent.natAbs))
    else if d.isZero then .ok d
    else if 0 ≤ exponent then .error .numberTooLarge
    else scale steps (d.div (powerOfTen 308)) (exponent + 308)

/-- `significand · 10 ^ exponent` with a sign. -/
def scaled (negative : Bool) (significand : Nat) (exponent : Int) : Except Fault Json := do
  let d ← scale 4 (Double.ofNat significand) exponent
  return .double (if negative then d.neg else d)

/-- The digits of an exponent, by which a number is scaled up or down. -/
def readScale (negative : Bool) (significand : Nat) (exponent : Int) (down : Bool) :
    List Char → Except Fault (Json × List Char)
  | [] => .error .endOfText
  | c :: rest =>
    if (digit? c).isNone then .error .badNumber
    else
      let (value, _, dropped, rest) := readDigits 0 0 0 (c :: rest)
      if dropped = 0 ∧ value ≤ Nat.pow 2 31 - 1 then do
        let json ← scaled negative significand (if down then exponent - value else exponent + value)
        return (json, rest)
      else if significand ≠ 0 ∧ !down then .error .numberTooLarge
      else return (.double (Double.ofMagnitude negative 0), rest)

/-- The exponent part of a number after its `e`. -/
def readExponent (negative : Bool) (significand : Nat) (exponent : Int) :
    List Char → Except Fault (Json × List Char)
  | '+' :: rest => readScale negative significand exponent false rest
  | '-' :: rest => readScale negative significand exponent true rest
  | cs => readScale negative significand exponent false cs

/-- What stands behind the digits of a fraction. -/
def readPower (negative : Bool) (significand : Nat) (exponent : Int) :
    List Char → Except Fault (Json × List Char)
  | 'e' :: rest | 'E' :: rest => readExponent negative significand exponent rest
  | rest => do return (← scaled negative significand exponent, rest)

/-- A fraction after its point. -/
def readDecimals (negative : Bool) (significand dropped : Nat) :
    List Char → Except Fault (Json × List Char)
  | [] => .error .endOfText
  | c :: rest =>
    if (digit? c).isNone then .error .badNumber
    else
      let (significand, taken, _, rest) := readDigits significand 0 0 (c :: rest)
      readPower negative significand ((dropped : Int) - taken) rest

/-- The value of a number without a fraction and without an exponent. -/
def whole (negative : Bool) (significand dropped : Nat) : Except Fault Json :=
  if dropped ≠ 0 then scaled negative significand dropped
  else if !negative then .ok (.int significand)
  else if significand = 0 ∨ Nat.pow 2 63 < significand then
    .ok (.double (Double.ofNat significand).neg)
  else .ok (.int (-significand))

/-- The part of a number after its integral digits, of which `dropped` did not fit. -/
def readFraction (negative : Bool) (significand dropped : Nat) :
    List Char → Except Fault (Json × List Char)
  | '.' :: rest => readDecimals negative significand dropped rest
  | 'e' :: rest | 'E' :: rest => readExponent negative significand dropped rest
  | rest => do return (← whole negative significand dropped, rest)

/-- A number after its sign. -/
def readNumber (negative : Bool) (cs : List Char) : Except Fault (Json × List Char) :=
  match cs with
  | [] => .error .endOfText
  | '0' :: rest =>
    match rest.head?.bind digit? with
    | some _ => .error .badNumber
    | none => readFraction negative 0 0 rest
  | c :: rest =>
    if (digit? c).isNone then .error .badNumber
    else
      let (significand, _, dropped, rest) := readDigits 0 0 0 (c :: rest)
      readFraction negative significand dropped rest

/-! ## Strings -/

def hexValue? (c : Char) : Option Nat :=
  if '0' ≤ c ∧ c ≤ '9' then some (c.toNat - 48)
  else if 'a' ≤ c ∧ c ≤ 'f' then some (c.toNat - 87)
  else if 'A' ≤ c ∧ c ≤ 'F' then some (c.toNat - 55)
  else none

def hexFour? (a b c d : Char) : Option Nat := do
  return ((← hexValue? a) * 16 + (← hexValue? b)) * 256 + (← hexValue? c) * 16 + (← hexValue? d)

/-- The character of a short escape. -/
def shortEscape? : Char → Option Char
  | '"' => some '"'
  | '\\' => some '\\'
  | '/' => some '/'
  | 'b' => some '\x08'
  | 'f' => some '\x0c'
  | 'n' => some '\n'
  | 'r' => some '\r'
  | 't' => some '\t'
  | _ => none

/-- The characters of a string up to its closing quotation mark, after those in `done`, which are in
reverse. A character beyond 16 bits is written as a pair of surrogates, and a lone surrogate is
refused. -/
def readString (done : List Char) : List Char → Except Fault (String × List Char)
  | [] => .error .endOfText
  | '"' :: rest => .ok (String.ofList done.reverse, rest)
  | '\\' :: 'u' :: a :: b :: c :: d :: rest =>
    match hexFour? a b c d with
    | none => .error .badEscape
    | some n =>
      if 0xDC00 ≤ n ∧ n ≤ 0xDFFF then .error .badEscape
      else if 0xD800 ≤ n ∧ n ≤ 0xDBFF then
        match rest with
        | '\\' :: 'u' :: e :: f :: g :: h :: rest =>
          match hexFour? e f g h with
          | none => .error .badEscape
          | some low =>
            if 0xDC00 ≤ low ∧ low ≤ 0xDFFF then
              readString (Char.ofNat (0x10000 + (n - 0xD800) * 0x400 + (low - 0xDC00)) :: done) rest
            else .error .badEscape
        | _ => .error .badEscape
      else readString (Char.ofNat n :: done) rest
  | '\\' :: c :: rest =>
    match shortEscape? c with
    | some e => readString (e :: done) rest
    | none => .error .badEscape
  | c :: rest => if c.toNat < 0x20 then .error .controlCharacter else readString (c :: done) rest

/-! ## Values -/

/-- The text after a word that must come next. -/
def readWord (word : List Char) (value : Json) (cs : List Char) :
    Except Fault (Json × List Char) :=
  if word.isPrefixOf cs then .ok (value, cs.drop word.length)
  else .error (cs.head?.elim .endOfText .unexpected)

/-- Parts with commas between them up to a closing bracket, after those in `done`, which are in
reverse. -/
def readParts {α : Type} (part : List Char → Except Fault (α × List Char)) (closing : Char) :
    Nat → List α → List Char → Except Fault (List α × List Char)
  | 0, _, _ => .error .endOfText
  | fuel + 1, done, cs => do
    let (value, rest) ← part cs
    match skipBlanks rest with
    | [] => .error .endOfText
    | c :: rest =>
      if c = ',' then readParts part closing fuel (value :: done) (skipBlanks rest)
      else if c = closing then return ((value :: done).reverse, rest)
      else .error (.unexpected c)

/-- The colon of a member and its value. -/
def readMemberValue (item : List Char → Except Fault (Json × List Char)) (key : String) :
    List Char → Except Fault ((String × Json) × List Char)
  | [] => .error .endOfText
  | c :: rest =>
    if c = ':' then do
      let (value, rest) ← item (skipBlanks rest)
      return ((key, value), rest)
    else .error (.unexpected c)

/-- A member of an object. -/
def readMember (item : List Char → Except Fault (Json × List Char)) :
    List Char → Except Fault ((String × Json) × List Char)
  | [] => .error .endOfText
  | c :: rest =>
    if c = '"' then do
      let (key, rest) ← readString [] rest
      readMemberValue item key (skipBlanks rest)
    else .error (.unexpected c)

/-- A value, which starts without blanks and is nested less than `depth` deep. -/
def readValue : Nat → List Char → Except Fault (Json × List Char)
  | 0, _ => .error .tooDeep
  | depth + 1, cs =>
    match cs with
    | [] => .error .endOfText
    | 'n' :: _ => readWord "null".toList .null cs
    | 't' :: _ => readWord "true".toList (.bool true) cs
    | 'f' :: _ => readWord "false".toList (.bool false) cs
    | '-' :: rest => readNumber true rest
    | '"' :: rest => do
      let (value, rest) ← readString [] rest
      return (.text value, rest)
    | '[' :: rest =>
      if depth = 0 then .error .tooDeep
      else
        match skipBlanks rest with
        | ']' :: rest => .ok (.array [], rest)
        | rest => do
          let (items, rest) ← readParts (readValue depth) ']' rest.length [] rest
          return (.array items, rest)
    | '\x7b' :: rest =>
      if depth = 0 then .error .tooDeep
      else
        match skipBlanks rest with
        | '\x7d' :: rest => .ok (.object [], rest)
        | rest => do
          let (members, rest) ← readParts (readMember (readValue depth)) '\x7d' rest.length [] rest
          return (.object (collectMembers members), rest)
    | c :: _ => if (digit? c).isSome then readNumber false cs else .error (.unexpected c)

/-- The value that a text holds. -/
def read (text : String) : Except Fault Json := do
  let (value, rest) ← readValue 128 (skipBlanks text.toList)
  match skipBlanks rest with
  | [] => return value
  | _ => .error .trailing

attribute [grind =] readDigits readString readParts readMemberValue readMember readValue

end FunctionApp.Json
