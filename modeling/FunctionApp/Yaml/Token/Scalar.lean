import FunctionApp.Yaml.Cursor
import FunctionApp.Yaml.Fault
import FunctionApp.Yaml.Token
import FunctionApp.Yaml.Token.Hex

/-!
# Scalars of a YAML text

A plain or quoted scalar may span lines. The blanks between two of its words stand for themselves
inside a line; across lines the first line break becomes a space, unless empty lines follow, which
then stand for themselves (`Gap.text`). A block scalar keeps its lines, or folds them likewise.
-/

namespace FunctionApp.Yaml

/-! ## Gaps between words -/

/-- The blanks between two words of a scalar, each part in reverse. -/
structure Gap where
  /-- The spaces and tabs of a gap inside one line. -/
  blanks : List Char
  /-- The first line break. -/
  first : List Char
  /-- The further line breaks. -/
  more : List Char
  /-- Whether the gap spans lines. -/
  broken : Bool

namespace Gap

def empty : Gap := ⟨[], [], [], false⟩

/-- The text that a gap stands for. -/
def text (gap : Gap) : List Char :=
  if gap.broken then
    if gap.first = ['\n'] then if gap.more.isEmpty then [' '] else gap.more.reverse
    else gap.first ++ gap.more.reverse
  else gap.blanks.reverse

/-- The gap that goes on at a place, and the place after it. In a plain scalar a tab may not stand
in a column before `indent` of a further line. -/
def read (indent : Int) : Nat → Gap → Cursor → Except Fault (Gap × Cursor)
  | 0, gap, at_ => .ok (gap, at_)
  | fuel + 1, gap, at_ =>
    match at_.rest with
    | [] => .ok (gap, at_)
    | c :: _ =>
      if isSpaceOrTab c then
        if gap.broken then
          if c == '\t' && (at_.column : Int) < indent then .error .tabIndentation
          else read indent fuel gap (at_.advance 1)
        else read indent fuel { gap with blanks := c :: gap.blanks } (at_.advance 1)
      else if isBreak c then
        let (line, next) := at_.takeBreak
        if gap.broken then read indent fuel { gap with more := line ++ gap.more } next
        else read indent fuel ⟨[], line, gap.more, true⟩ next
      else .ok (gap, at_)

end Gap

/-! ## Plain scalars -/

/-- Whether a character is one of the flow indicators. -/
def isFlowIndicator (c : Char) : Bool :=
  c == ',' || c == '[' || c == ']' || c == '\x7b' || c == '\x7d'

/-- The characters of a plain scalar up to a blank or an indicator that ends it. -/
def plainWord (inFlow : Bool) : List Char → Except Fault (List Char × List Char)
  | [] => .ok ([], [])
  | c :: rest =>
    if isSpaceOrTab c || isBreak c then .ok ([], c :: rest)
    else if inFlow && c == ':' && rest.head?.any (fun d => isFlowIndicator d || d == '?') then
      .error .strayColon
    else if (c == ':' && atBlank rest) || (inFlow && isFlowIndicator c) then .ok ([], c :: rest)
    else do
      let (word, rest) ← plainWord inFlow rest
      return (c :: word, rest)

/-- A plain scalar after the words in `done`, which are in reverse, and a gap: its text, the place
after it, and whether that place is on a further line. -/
def readPlain (inFlow : Bool) (indent : Int) :
    Nat → List Char → Gap → Cursor → Except Fault (List Char × Cursor × Bool)
  | 0, done, gap, at_ => .ok (done.reverse, at_, gap.broken)
  | fuel + 1, done, gap, at_ => do
    if at_.atDocumentMark || at_.rest.head? == some '#' then
      return (done.reverse, at_, gap.broken)
    let (word, rest) ← plainWord inFlow at_.rest
    let (done, gap) :=
      if word.isEmpty then (done, gap) else (word.reverse ++ gap.text.reverse ++ done, Gap.empty)
    let at_ := at_.moveTo rest
    if rest.isEmpty || !atBlank rest then return (done.reverse, at_, gap.broken)
    let (gap, at_) ← gap.read indent rest.length at_
    if !inFlow && (at_.column : Int) < indent then return (done.reverse, at_, gap.broken)
    readPlain inFlow indent fuel done gap at_

/-! ## Quoted scalars -/

/-- The character of a short escape of a double-quoted scalar. -/
def shortEscape? : Char → Option Char
  | '0' => some '\x00'
  | 'a' => some '\x07'
  | 'b' => some '\x08'
  | 't' => some '\t'
  | '\t' => some '\t'
  | 'n' => some '\n'
  | 'v' => some '\x0b'
  | 'f' => some '\x0c'
  | 'r' => some '\r'
  | 'e' => some '\x1b'
  | ' ' => some ' '
  | '"' => some '"'
  | '/' => some '/'
  | '\\' => some '\\'
  | 'N' => some '\u0085'
  | '_' => some '\u00a0'
  | 'L' => some '\u2028'
  | 'P' => some '\u2029'
  | _ => none

/-- The number of hexadecimal digits of a numeric escape. -/
def escapeLength? : Char → Option Nat
  | 'x' => some 2
  | 'u' => some 4
  | 'U' => some 8
  | _ => none

/-- The character of an escape, after its backslash, and the text after it. -/
def readEscape (cs : List Char) : Except Fault (Char × List Char) :=
  match cs with
  | [] => .error .badEscape
  | c :: rest =>
    match shortEscape? c, escapeLength? c with
    | some e, _ => .ok (e, rest)
    | none, none => .error .badEscape
    | none, some n =>
      match takeHex n 0 rest with
      | none => .error .badEscape
      | some (value, rest) =>
        if h : value.isValidChar then .ok (Char.ofNatAux value h, rest) else .error .badEscape

/-- The characters of a quoted scalar up to a blank, its closing quotation mark or an escaped line
break, and the text from there. -/
def quotedWord (mark : Char) : Nat → List Char → Except Fault (List Char × List Char)
  | 0, cs => .ok ([], cs)
  | fuel + 1, cs =>
    match cs with
    | [] => .ok ([], [])
    | c :: rest => do
      if isSpaceOrTab c || isBreak c then return ([], cs)
      else if mark == '\'' && c == '\'' && rest.head? == some '\'' then
        let (word, rest) ← quotedWord mark fuel (rest.drop 1)
        return ('\'' :: word, rest)
      else if c == mark then return ([], cs)
      else if mark == '"' && c == '\\' then
        if rest.head?.any isBreak then return ([], cs)
        let (e, rest) ← readEscape rest
        let (word, rest) ← quotedWord mark fuel rest
        return (e :: word, rest)
      else
        let (word, rest) ← quotedWord mark fuel rest
        return (c :: word, rest)

/-- A quoted scalar after its opening quotation mark and the text in `done`, which is in reverse:
its text and the place after its closing quotation mark. -/
def readQuoted (mark : Char) : Nat → List Char → Cursor → Except Fault (List Char × Cursor)
  | 0, _, _ => .error .unterminatedQuote
  | fuel + 1, done, at_ => do
    if at_.atDocumentMark || at_.rest.isEmpty then .error .unterminatedQuote
    let (word, rest) ← quotedWord mark at_.rest.length at_.rest
    let done := word.reverse ++ done
    let at_ := at_.moveTo rest
    match rest with
    | [] => readQuoted mark fuel done at_
    | c :: _ =>
      if c == mark then return (done.reverse, at_.advance 1)
      let (gap, at_) :=
        if c == '\\' then (⟨[], [], [], true⟩, (at_.advance 1).takeBreak.2) else (Gap.empty, at_)
      let (gap, at_) ← gap.read (-1) at_.rest.length at_
      readQuoted mark fuel (gap.text.reverse ++ done) at_

/-! ## Block scalars -/

/-- What a block scalar keeps of its last line breaks. -/
inductive Chomp where
  | strip
  | clip
  | keep
deriving DecidableEq, Repr

/-- The chomping and the indentation that the header of a block scalar gives, in either order, and
the place after them. -/
def readBlockHeader (at_ : Cursor) : Except Fault (Chomp × Option Nat × Cursor) :=
  let chomp? : Char → Option Chomp
    | '+' => some .keep
    | '-' => some .strip
    | _ => none
  let digit? : Char → Option Nat := fun c =>
    if '0' ≤ c ∧ c ≤ '9' then some (c.toNat - '0'.toNat) else none
  match at_.rest with
  | [] => .ok (.clip, none, at_)
  | c :: rest =>
    match chomp? c, digit? c with
    | some chomp, _ =>
      match rest.head?.bind digit? with
      | none => .ok (chomp, none, at_.advance 1)
      | some 0 => .error .badBlockHeader
      | some n => .ok (chomp, some n, at_.advance 2)
    | none, some 0 => .error .badBlockHeader
    | none, some n =>
      match rest.head?.bind chomp? with
      | none => .ok (.clip, some n, at_.advance 1)
      | some chomp => .ok (chomp, some n, at_.advance 2)
    | none, none => .ok (.clip, none, at_)

/-- The line breaks of empty lines, in reverse after those in `done`, and the place after the
indentation of the next line that is not empty. An indentation of zero is not known yet, and
`widest` is then the widest indentation so far. -/
def readEmptyLines (indent : Nat) :
    Nat → Nat → List Char → Cursor → Except Fault (Nat × List Char × Cursor)
  | 0, widest, done, at_ => .ok (widest, done, at_)
  | fuel + 1, widest, done, at_ =>
    let spaces := (at_.rest.takeWhile (· == ' ')).length
    let at_ := at_.advance (if indent = 0 then spaces else min spaces (indent - at_.column))
    let widest := max widest at_.column
    if (indent = 0 ∨ at_.column < indent) ∧ at_.rest.head? = some '\t' then .error .tabIndentation
    else if at_.rest.head?.any isBreak then
      let (line, next) := at_.takeBreak
      readEmptyLines indent fuel widest (line ++ done) next
    else .ok (widest, done, at_)

/-- The lines of a block scalar at an indentation, after the text in `done`, which is in reverse.
`first` is the break of the last line, `more` are those of the empty lines after it in reverse, and
`wasBlank` says that the last line starts with a blank. -/
def readBlockLines (folded : Bool) (indent : Nat) :
    Nat → List Char → List Char → List Char → Bool → Cursor →
      Except Fault (List Char × List Char × List Char × Cursor)
  | 0, done, first, more, _, at_ => .ok (done, first, more, at_)
  | fuel + 1, done, first, more, wasBlank, at_ =>
    match at_.rest with
    | [] => .ok (done, first, more, at_)
    | c :: _ =>
      if at_.column ≠ indent then .ok (done, first, more, at_)
      else do
        let isBlank := isSpaceOrTab c
        let joined :=
          if folded && first == ['\n'] && !wasBlank && !isBlank then
            if more.isEmpty then ' ' :: done else done
          else first ++ done
        let line := at_.rest.takeWhile fun c => !isBreak c
        let (first, at_) := (at_.advance line.length).takeBreak
        let done := line.reverse ++ more ++ joined
        let (_, more, at_) ← readEmptyLines indent at_.rest.length 0 [] at_
        readBlockLines folded indent fuel done first more isBlank at_

/-- A block scalar after its indicator, inside a block at an indentation: its text and the place
after it. -/
def readBlock (folded : Bool) (parent : Int) (at_ : Cursor) :
    Except Fault (List Char × Cursor) := do
  let (chomp, increment, at_) ← readBlockHeader at_
  let at_ := at_.skipWhile isSpaceOrTab
  let at_ := if at_.rest.head? == some '#' then at_.skipLine else at_
  if !atBreak at_.rest then .error .badBlockHeader
  let (_, at_) := at_.takeBreak
  let indent := match increment with
    | some n => n + parent.toNat
    | none => 0
  let (widest, more, at_) ← readEmptyLines indent (at_.rest.length + 1) 0 [] at_
  let indent := if indent = 0 then max (max widest (parent + 1).toNat) 1 else indent
  let (done, first, more, at_) ← readBlockLines folded indent at_.rest.length [] [] more false at_
  let text := match chomp with
    | .strip => done
    | .clip => first ++ done
    | .keep => more ++ first ++ done
  return (text.reverse, at_)

end FunctionApp.Yaml
