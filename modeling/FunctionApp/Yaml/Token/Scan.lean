import FunctionApp.Yaml.Token.Scalar
import FunctionApp.Yaml.Token.Tag

/-!
# The tokens of a YAML text

Two kinds of token do not stand in the text. A key that is not announced by `?` is known only when
its colon follows, so a `key` token is put in before the node where the key starts, as long as that
is on the same line and at most 1024 bytes back (`PendingKey`). And a block collection starts
where its first entry stands further right than the block around it, and ends before the first token
that does not.
-/

namespace FunctionApp.Yaml

/-- Where a key may have started that has no colon yet. -/
structure PendingKey where
  /-- The number of tokens before it. -/
  tokenIndex : Nat
  /-- Whether the text is malformed if no colon follows: the key stands at the indentation of its
  block. -/
  required : Bool
  offset : Nat
  line : Nat
  column : Nat

/-- A text that is read up to a place. -/
structure Scan where
  at_ : Cursor
  /-- The tokens so far, the last one first. -/
  tokens : List Token
  count : Nat
  /-- The column of the current block, `-1` outside all blocks. -/
  indent : Int
  /-- The columns of the blocks around it. -/
  outer : List Int
  /-- The possible key of each open flow collection, the innermost first, and last the one outside
  them all. -/
  keys : List (Option PendingKey)
  /-- Whether a key may start here. -/
  keyAllowed : Bool

namespace Scan

def start (text : List Char) : Scan :=
  ⟨Cursor.start text, [], 0, -1, [], [none], true⟩

/-- Whether the place is inside a flow collection. -/
def inFlow (s : Scan) : Bool := 1 < s.keys.length

/-- With a token at the end. -/
def emit (token : Token) (s : Scan) : Scan :=
  { s with tokens := token :: s.tokens, count := s.count + 1 }

/-- With a token before all but the first `index` ones. -/
def insert (index : Nat) (token : Token) (s : Scan) : Scan :=
  let (after, before) := s.tokens.splitAt (s.count - index)
  { s with tokens := after ++ token :: before, count := s.count + 1 }

/-- With a possible key at the innermost level. -/
def setKey (key : Option PendingKey) (s : Scan) : Scan :=
  { s with keys := key :: s.keys.tail }

/-- Without a possible key at the innermost level. -/
def dropKey (s : Scan) : Except Fault Scan :=
  match s.keys.head? with
  | some (some key) => if key.required then .error .missingColon else .ok (s.setKey none)
  | _ => .ok s

/-- With a possible key at this place, if a key may start here. -/
def saveKey (s : Scan) : Except Fault Scan := do
  if s.keyAllowed then
    let required := !s.inFlow && s.indent == s.at_.column
    let s ← s.dropKey
    return s.setKey (some ⟨s.count, required, s.at_.offset, s.at_.line, s.at_.column⟩)
  else return s

/-- Without the possible keys that this place is too far from. -/
def expireKeys (s : Scan) : Except Fault Scan := do
  let keys ← s.keys.mapM fun
    | none => .ok none
    | some key =>
      if key.line < s.at_.line || key.offset + 1024 < s.at_.offset then
        if key.required then .error .missingColon else .ok none
      else .ok (some key)
  return { s with keys := keys }

/-- With a block collection of a column, if that is further right than the current block: its token
stands before all but the first `index` ones. -/
def openBlock (column index : Nat) (token : Token) (s : Scan) : Scan :=
  if !s.inFlow && s.indent < column then
    { s.insert index token with indent := column, outer := s.indent :: s.outer }
  else s

/-- Without the blocks further right than a column. -/
def closeBlocks (column : Int) : Nat → Scan → Scan
  | 0, s => s
  | fuel + 1, s =>
    if !s.inFlow && column < s.indent then
      closeBlocks column fuel
        { s.emit .blockEnd with indent := s.outer.headD (-1), outer := s.outer.tail }
    else s

/-- Without the blocks further right than a column. -/
def closeTo (column : Int) (s : Scan) : Scan := closeBlocks column (s.outer.length + 1) s

/-! ## Blanks, comments and directives -/

/-- The scan after blanks, comments and line breaks. A byte order mark at the start of a line is a
blank of its own column. A tab is blank only where no key may start, and outside flow collections a
new line may start a key. -/
def skipBlanks : Nat → Scan → Scan
  | 0, s => s
  | fuel + 1, s =>
    let at_ := if s.at_.column == 0 && s.at_.rest.head? == some '\ufeff' then s.at_.advance 1
      else s.at_
    let at_ := at_.skipWhile fun c => c == ' ' || ((s.inFlow || !s.keyAllowed) && c == '\t')
    let at_ := if at_.rest.head? == some '#' then at_.skipLine else at_
    if at_.rest.head?.any isBreak then
      skipBlanks fuel
        { s with at_ := at_.takeBreak.2, keyAllowed := s.keyAllowed || !s.inFlow }
    else { s with at_ := at_ }

/-- A number of a version, which has at most nine digits. -/
def takeNumber (cs : List Char) : Except Fault (Nat × List Char) :=
  let isDigit := fun c : Char => '0' ≤ c && c ≤ '9'
  let digits := cs.takeWhile isDigit
  if digits.isEmpty || 9 < digits.length then .error .badDirective
  else .ok (digits.foldl (fun n c => 10 * n + (c.toNat - '0'.toNat)) 0, cs.dropWhile isDigit)

/-- The parameters of a directive and the text after them. -/
def takeDirective (name : List Char) (cs : List Char) : Except Fault (Token × List Char) := do
  let cs := cs.dropWhile isSpaceOrTab
  if name = "YAML".toList then
    let (major, cs) ← takeNumber cs
    match cs with
    | '.' :: cs =>
      let (minor, cs) ← takeNumber cs
      return (.version major minor, cs)
    | _ => .error .badDirective
  else if name = "TAG".toList then
    let (handle, cs) ← takeTagHandle cs
    if handle ≠ ['!'] ∧ (handle.length < 2 ∨ handle.getLast? ≠ some '!') then .error .badDirective
    if !cs.head?.any isSpaceOrTab then .error .badDirective
    let (expansion, cs) ← takeTagBytes true cs.length (cs.dropWhile isSpaceOrTab)
    if expansion.isEmpty || !atBlank cs then .error .badDirective
    return (.tagDirective (String.ofList handle) (.ofBytes expansion), cs)
  else .error .badDirective

/-- The scan after a directive line. -/
def readDirective (s : Scan) : Except Fault Scan := do
  let s ← (s.closeTo (-1)).dropKey
  let cs := s.at_.rest.drop 1
  let name := cs.takeWhile isWordChar
  let cs := cs.dropWhile isWordChar
  if name.isEmpty || !atBlank cs then .error .badDirective
  let (token, cs) ← takeDirective name cs
  let at_ := (s.at_.moveTo cs).skipWhile isSpaceOrTab
  let at_ := if at_.rest.head? == some '#' then at_.skipLine else at_
  if !atBreak at_.rest then .error .badDirective
  return { s.emit token with at_ := at_.takeBreak.2, keyAllowed := false }

/-! ## Anchors and tags -/

/-- Whether an anchor or alias can end before a text. -/
def endsAnchor (cs : List Char) : Bool :=
  atBlank cs || cs.head?.any fun c => "?:,]\x7d%@\x60".toList.contains c

/-- The scan after an anchor or an alias. -/
def readAnchor (token : String → Token) (s : Scan) : Except Fault Scan := do
  let s ← s.saveKey
  let cs := s.at_.rest.drop 1
  let name := cs.takeWhile isWordChar
  let rest := cs.dropWhile isWordChar
  if name.isEmpty || !endsAnchor rest then .error .badAnchor
  return { s.emit (token (String.ofList name)) with at_ := s.at_.moveTo rest, keyAllowed := false }

def readTag (s : Scan) : Except Fault Scan := do
  let s ← s.saveKey
  let (handle, suffix, rest) ← takeTag s.at_.rest
  if !(s.inFlow && rest.head? == some ',') && !atBlank rest then .error .badTag
  return { s.emit (.tag handle suffix) with at_ := s.at_.moveTo rest, keyAllowed := false }

/-! ## Indicators -/

/-- The scan after the mark of a document's start or end. -/
def readDocumentMark (token : Token) (s : Scan) : Except Fault Scan := do
  let s ← (s.closeTo (-1)).dropKey
  return { s.emit token with at_ := s.at_.advance 3, keyAllowed := false }

def openFlow (token : Token) (s : Scan) : Except Fault Scan := do
  let s ← s.saveKey
  return { s.emit token with at_ := s.at_.advance 1, keys := none :: s.keys, keyAllowed := true }

def closeFlow (token : Token) (s : Scan) : Except Fault Scan := do
  let s ← s.dropKey
  let keys := if s.inFlow then s.keys.tail else s.keys
  return { s.emit token with at_ := s.at_.advance 1, keys := keys, keyAllowed := false }

def readFlowEntry (s : Scan) : Except Fault Scan := do
  let s ← s.dropKey
  return { s.emit .flowEntry with at_ := s.at_.advance 1, keyAllowed := true }

def readBlockEntry (s : Scan) : Except Fault Scan := do
  if !s.inFlow && !s.keyAllowed then .error (.misplacedIndicator '-')
  let s ← (s.openBlock s.at_.column s.count .blockSequenceStart).dropKey
  return { s.emit .blockEntry with at_ := s.at_.advance 1, keyAllowed := true }

def readKey (s : Scan) : Except Fault Scan := do
  if !s.inFlow && !s.keyAllowed then .error (.misplacedIndicator '?')
  let s ← (s.openBlock s.at_.column s.count .blockMappingStart).dropKey
  return { s.emit .key with at_ := s.at_.advance 1, keyAllowed := !s.inFlow }

def readValue (s : Scan) : Except Fault Scan := do
  match s.keys.head? with
  | some (some key) =>
    let s := (s.insert key.tokenIndex .key).setKey none
    let s := s.openBlock key.column key.tokenIndex .blockMappingStart
    return { s.emit .value with at_ := s.at_.advance 1, keyAllowed := false }
  | _ =>
    if !s.inFlow && !s.keyAllowed then .error (.misplacedIndicator ':')
    let s := s.openBlock s.at_.column s.count .blockMappingStart
    return { s.emit .value with at_ := s.at_.advance 1, keyAllowed := !s.inFlow }

/-! ## Scalars -/

def readBlockScalar (style : Style) (s : Scan) : Except Fault Scan := do
  let s ← s.dropKey
  let start := s.at_.line
  let (text, at_) ← readBlock (style == .folded) s.indent (s.at_.advance 1)
  return { s.emit (.scalar (String.ofList text) style start) with at_ := at_, keyAllowed := true }

def readQuotedScalar (mark : Char) (style : Style) (s : Scan) : Except Fault Scan := do
  let s ← s.saveKey
  let start := s.at_.line
  let (text, at_) ← readQuoted mark s.at_.rest.length [] (s.at_.advance 1)
  return { s.emit (.scalar (String.ofList text) style start) with at_ := at_, keyAllowed := false }

/-- The scan after a plain scalar, after which a key may start if it ends on a further line. -/
def readPlainScalar (s : Scan) : Except Fault Scan := do
  let s ← s.saveKey
  let start := s.at_.line
  let (text, at_, broken) ←
    readPlain s.inFlow (s.indent + 1) s.at_.rest.length [] Gap.empty s.at_
  return { s.emit (.scalar (String.ofList text) .plain start) with at_ := at_, keyAllowed := broken }

/-! ## The whole text -/

/-- Whether a plain scalar can start with a character before a text. -/
def startsPlain (inFlow : Bool) (c : Char) (rest : List Char) : Bool :=
  if c == '-' then !rest.head?.any isSpaceOrTab
  else if c == '?' || c == ':' then !inFlow && !atBlank rest
  else !"-?:,[]\x7b\x7d#&*!|>'\"%@\x60".toList.contains c && !isSpaceOrTab c && !isBreak c

/-- The scan after the next token, which starts with `c` before `rest`. -/
def readToken (c : Char) (rest : List Char) (s : Scan) : Except Fault Scan :=
  if s.at_.column == 0 && c == '%' then s.readDirective
  else if s.at_.atDocumentMark then
    s.readDocumentMark (if c == '-' then .documentStart else .documentEnd)
  else if c == '[' then s.openFlow .flowSequenceStart
  else if c == '\x7b' then s.openFlow .flowMappingStart
  else if c == ']' then s.closeFlow .flowSequenceEnd
  else if c == '\x7d' then s.closeFlow .flowMappingEnd
  else if c == ',' then s.readFlowEntry
  else if c == '-' && atBlank rest then s.readBlockEntry
  else if c == '?' && (s.inFlow || atBlank rest) then s.readKey
  else if c == ':' && (s.inFlow || atBlank rest) then s.readValue
  else if c == '*' then s.readAnchor (.alias · s.at_.line)
  else if c == '&' then s.readAnchor .anchor
  else if c == '!' then s.readTag
  else if c == '|' && !s.inFlow then s.readBlockScalar .literal
  else if c == '>' && !s.inFlow then s.readBlockScalar .folded
  else if c == '\'' then s.readQuotedScalar '\'' .singleQuoted
  else if c == '"' then s.readQuotedScalar '"' .doubleQuoted
  else if startsPlain s.inFlow c rest then s.readPlainScalar
  else .error (.strayCharacter c)

/-- The tokens up to the end of the text, each of which takes at least one character. -/
def readAll : Nat → Scan → Except Fault (List Token)
  | 0, s => .ok s.tokens.reverse
  | fuel + 1, s => do
    let s ← (s.skipBlanks (s.at_.rest.length + 1)).expireKeys
    let s := s.closeTo s.at_.column
    match s.at_.rest with
    | [] =>
      let s ← (s.closeTo (-1)).dropKey
      return s.tokens.reverse
    | c :: rest => readAll fuel (← s.readToken c rest)

end Scan

def tokens (text : List Char) : Except Fault (List Token) :=
  if text.all isAllowed then Scan.readAll (text.length + 1) (Scan.start text)
  else .error .forbiddenCharacter

end FunctionApp.Yaml
