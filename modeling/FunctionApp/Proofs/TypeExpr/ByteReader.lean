import FunctionApp.Proofs.Text.Positions
import FunctionApp.Proofs.TypeExpr.Reader

/-!
# Reading type expressions byte by byte

The reader of type expressions as it goes over the bytes of a text. It moves its position over one
byte at a time, and only over a byte that it has looked at. Blanks are passed over before a byte is
looked at, and a name is cut out of the text between two positions. Each of these steps is noted.

How deep the functions may call each other is given by `fuel`, and so is how often a loop may go
round.
-/

namespace FunctionApp.TypeExpr

open Grammar Text

/-- A step of the reader. -/
inductive Event where
  /-- It comes to a position. -/
  | reach (pos : Nat)
  /-- It starts to read a union, inside of the union that it started to read at `outer`, if any. -/
  | start (outer : Option Nat) (pos : Nat)
  /-- It cuts out a name. -/
  | cut (start stop : Nat)
deriving DecidableEq, Repr

/-- Where the reader is and what it has done, the last step first. -/
structure Cursor where
  pos : Nat
  events : List Event
deriving DecidableEq, Repr

/-- Why the reader stops before it has a result. -/
inductive Halt where
  | refused (e : SyntaxError)
  /-- There is no text between two positions. -/
  | cutFails (start stop : Nat)
  | outOfFuel
deriving DecidableEq, Repr

namespace Cursor

def initial : Cursor := ⟨0, [.reach 0]⟩

def note (event : Event) (s : Cursor) : Cursor := { s with events := event :: s.events }

/-- One byte further. -/
def next (s : Cursor) : Cursor := ⟨s.pos + 1, .reach (s.pos + 1) :: s.events⟩

/-- Behind the bytes with a property that come next. -/
def passWhile (text : String) (p : Char → Bool) (s : Cursor) : Cursor :=
  match _h : byteAt? text s.pos with
  | some c => if p c then passWhile text p s.next else s
  | none => s
termination_by text.utf8ByteSize - s.pos
decreasing_by
  have := lt_of_byteAt? _h
  simp only [next]
  omega

end Cursor

/-- A reader that keeps its cursor when it stops. -/
abbrev ByteReader := ExceptT Halt (StateM Cursor)

namespace ByteReader

variable {α : Type} (text : String)

def refuse (cause : SyntaxCause) : ByteReader α := do
  throw (.refused ⟨text, (← get).pos, cause⟩)

/-- The byte that comes next behind blanks. -/
def peek : ByteReader (Option Char) := do
  modify (Cursor.passWhile text isAsciiBlank)
  return byteAt? text (← get).pos

/-- Whether a character comes next, which is then passed over. -/
def eat (c : Char) : ByteReader Bool := do
  if (← peek text) = some c then
    modify Cursor.next
    return true
  else return false

def expect (c : Char) : ByteReader Unit := do
  if ← eat text c then return () else refuse text (.expected c)

def takeName : ByteReader String := do
  let start := (← get).pos
  modify (Cursor.passWhile text continuesName)
  let stop := (← get).pos
  modify (Cursor.note (.cut start stop))
  match slice? text start stop with
  | some name => return name
  | none => throw (.cutFails start stop)

/-- A type with the suffixes that follow it. -/
def suffixes (ty : TypeExpr) : Nat → ByteReader TypeExpr
  | 0 => throw .outOfFuel
  | fuel + 1 => do
    match ← peek text with
    | some '[' =>
      modify Cursor.next
      expect text ']'
      suffixes (.array ty) fuel
    | some '?' =>
      modify Cursor.next
      suffixes (optional ty) fuel
    | _ => return ty

mutual

/-- A type, inside of the union that was started at `outer`, if any. -/
def union (outer : Option Nat) : Nat → ByteReader TypeExpr
  | 0 => throw .outOfFuel
  | fuel + 1 => do
    let start := (← get).pos
    modify (Cursor.note (.start outer start))
    let first ← intersection start fuel
    let more ← alternatives start fuel
    return alternation first more

def alternatives (start : Nat) : Nat → ByteReader (List TypeExpr)
  | 0 => throw .outOfFuel
  | fuel + 1 => do
    if ← eat text '|' then
      let ty ← intersection start fuel
      let more ← alternatives start fuel
      return ty :: more
    else return []

def intersection (start : Nat) : Nat → ByteReader TypeExpr
  | 0 => throw .outOfFuel
  | fuel + 1 => do
    let first ← suffixed start fuel
    let more ← operands start fuel
    return conjunction first more

def operands (start : Nat) : Nat → ByteReader (List TypeExpr)
  | 0 => throw .outOfFuel
  | fuel + 1 => do
    if ← eat text '&' then
      let ty ← suffixed start fuel
      let more ← operands start fuel
      return ty :: more
    else return []

/-- A primary type with its suffixes. -/
def suffixed (start : Nat) : Nat → ByteReader TypeExpr
  | 0 => throw .outOfFuel
  | fuel + 1 => do
    let ty ← primary start fuel
    suffixes text ty fuel

def primary (start : Nat) : Nat → ByteReader TypeExpr
  | 0 => throw .outOfFuel
  | fuel + 1 => do
    match ← peek text with
    | some '(' =>
      modify Cursor.next
      if ← eat text ')' then return .nil
      else
        let ty ← union (some start) fuel
        expect text ')'
        return ty
    | some '[' =>
      modify Cursor.next
      let first ← union (some start) fuel
      let more ← elements start fuel
      expect text ']'
      return .tuple (first :: more)
    | some c =>
      if startsName c then
        let name ← takeName text
        if name = "map" then return .map (← parameter start fuel)
        else if name = "table" then return .table (← parameter start fuel)
        else return ofName name
      else refuse text .unexpectedCharacter
    | none => refuse text .unexpectedEnd

def elements (start : Nat) : Nat → ByteReader (List TypeExpr)
  | 0 => throw .outOfFuel
  | fuel + 1 => do
    if ← eat text ',' then
      let ty ← union (some start) fuel
      let more ← elements start fuel
      return ty :: more
    else return []

/-- A type between angle brackets. -/
def parameter (start : Nat) : Nat → ByteReader TypeExpr
  | 0 => throw .outOfFuel
  | fuel + 1 => do
    expect text '<'
    let ty ← union (some start) fuel
    expect text '>'
    return ty

end

/-- The type that the whole of a text is. -/
def whole (fuel : Nat) : ByteReader TypeExpr := do
  let ty ← union text none fuel
  if (← peek text).isSome then refuse text .trailingInput else return ty

end ByteReader

end FunctionApp.TypeExpr
