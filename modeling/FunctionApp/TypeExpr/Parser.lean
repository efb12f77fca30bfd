import FunctionApp.TypeExpr.Printer
import FunctionApp.TypeExpr.Token

/-!
# Reading type expressions

The grammar, where a union binds weakest and the suffixes `[]` and `?` bind strongest:

```text
union        := intersection ('|' intersection)*
intersection := postfix ('&' postfix)*
postfix      := primary ('[' ']' | '?')*
primary      := '(' ')' | '(' union ')' | '[' union (',' union)* ']'
              | 'map' '<' union '>' | 'table' '<' union '>' | name
```

Each function consumes tokens from the front of a list and returns the rest with a proof that it is
shorter, which is why the reader stops on every text.
-/

namespace FunctionApp.TypeExpr

inductive SyntaxCause where
  | expected (c : Char)
  | unexpectedCharacter
  | unexpectedEnd
  | trailingInput
deriving DecidableEq, Repr

def SyntaxCause.message : SyntaxCause → String
  | .expected c => "expected '" ++ c.toString ++ "'"
  | .unexpectedCharacter => "unexpected character"
  | .unexpectedEnd => "unexpected end of type expression"
  | .trailingInput => "unexpected trailing input"

/-- A text that is not a type expression, with the byte offset of the first token that does not fit,
or the length of the text when a token is missing at its end. -/
structure SyntaxError where
  input : String
  offset : Nat
  cause : SyntaxCause
deriving DecidableEq, Repr

/-- Where and why reading stopped: the tokens that were left. -/
structure Stop where
  cause : SyntaxCause
  rest : List Lexeme

/-- The result of reading from `ts`, with a rest shorter than `ts`. -/
abbrev Read (ts : List Lexeme) (α : Type) : Type :=
  Except Stop { p : α × List Lexeme // p.2.length < ts.length }

/-- The result of reading from `ts`, with a rest not longer than `ts`. -/
abbrev ReadMore (ts : List Lexeme) (α : Type) : Type :=
  Except Stop { p : α × List Lexeme // p.2.length ≤ ts.length }

/-- The tokens after one that must come next, which is written `c`. -/
def expect (token : Token) (c : Char) (ts : List Lexeme) : Read ts Unit :=
  match ts with
  | [] => .error ⟨.expected c, []⟩
  | t :: rest =>
    if t.token = token then .ok ⟨((), rest), Nat.lt_succ_self _⟩
    else .error ⟨.expected c, t :: rest⟩

/-- A type with the suffixes that follow it. -/
def readSuffixes (ty : TypeExpr) (ts : List Lexeme) : ReadMore ts TypeExpr :=
  match ts with
  | ⟨.openBracket, _⟩ :: ⟨.closeBracket, _⟩ :: rest =>
    match readSuffixes (.array ty) rest with
    | .error e => .error e
    | .ok ⟨p, h⟩ => .ok ⟨p, by simp only [List.length_cons]; omega⟩
  | ⟨.openBracket, _⟩ :: rest => .error ⟨.expected ']', rest⟩
  | ⟨.question, _⟩ :: rest =>
    match readSuffixes (optional ty) rest with
    | .error e => .error e
    | .ok ⟨p, h⟩ => .ok ⟨p, by simp only [List.length_cons]; omega⟩
  | ts => .ok ⟨(ty, ts), Nat.le_refl _⟩

mutual

/-- A type, up to a token that cannot continue it. -/
def readUnion (ts : List Lexeme) : Read ts TypeExpr :=
  match readIntersection ts with
  | .error e => .error e
  | .ok ⟨(first, rest), h⟩ =>
    match readAlternatives rest with
    | .error e => .error e
    | .ok ⟨([], rest), h'⟩ => .ok ⟨(first, rest), by simp only at h h' ⊢; omega⟩
    | .ok ⟨(more, rest), h'⟩ => .ok ⟨(unionOf (first :: more), rest), by simp only at h h' ⊢; omega⟩
termination_by 5 * ts.length + 4
decreasing_by
  · omega
  · simp only at h; omega

/-- The further members of a union, each after its bar. -/
def readAlternatives (ts : List Lexeme) : ReadMore ts (List TypeExpr) :=
  match ts with
  | ⟨.bar, _⟩ :: rest =>
    match readIntersection rest with
    | .error e => .error e
    | .ok ⟨(ty, rest'), h⟩ =>
      match readAlternatives rest' with
      | .error e => .error e
      | .ok ⟨(more, rest''), h'⟩ =>
        .ok ⟨(ty :: more, rest''), by simp only [List.length_cons] at h h' ⊢; omega⟩
  | ts => .ok ⟨([], ts), Nat.le_refl _⟩
termination_by 5 * ts.length + 0
decreasing_by
  · simp only [List.length_cons]; omega
  · simp only [List.length_cons] at h ⊢; omega

/-- A type without a bar outside brackets. -/
def readIntersection (ts : List Lexeme) : Read ts TypeExpr :=
  match readPostfix ts with
  | .error e => .error e
  | .ok ⟨(first, rest), h⟩ =>
    match readOperands rest with
    | .error e => .error e
    | .ok ⟨([], rest), h'⟩ => .ok ⟨(first, rest), by simp only at h h' ⊢; omega⟩
    | .ok ⟨(more, rest), h'⟩ =>
      .ok ⟨(.intersection (first :: more), rest), by simp only at h h' ⊢; omega⟩
termination_by 5 * ts.length + 3
decreasing_by
  · omega
  · simp only at h; omega

/-- The further members of an intersection, each after its ampersand. -/
def readOperands (ts : List Lexeme) : ReadMore ts (List TypeExpr) :=
  match ts with
  | ⟨.ampersand, _⟩ :: rest =>
    match readPostfix rest with
    | .error e => .error e
    | .ok ⟨(ty, rest'), h⟩ =>
      match readOperands rest' with
      | .error e => .error e
      | .ok ⟨(more, rest''), h'⟩ =>
        .ok ⟨(ty :: more, rest''), by simp only [List.length_cons] at h h' ⊢; omega⟩
  | ts => .ok ⟨([], ts), Nat.le_refl _⟩
termination_by 5 * ts.length + 0
decreasing_by
  · simp only [List.length_cons]; omega
  · simp only [List.length_cons] at h ⊢; omega

/-- A primary type with its suffixes. -/
def readPostfix (ts : List Lexeme) : Read ts TypeExpr :=
  match readPrimary ts with
  | .error e => .error e
  | .ok ⟨(ty, rest), h⟩ =>
    match readSuffixes ty rest with
    | .error e => .error e
    | .ok ⟨p, h'⟩ => .ok ⟨p, by simp only at h; omega⟩
termination_by 5 * ts.length + 2
decreasing_by omega

/-- A name or a type in brackets. -/
def readPrimary (ts : List Lexeme) : Read ts TypeExpr :=
  match ts with
  | [] => .error ⟨.unexpectedEnd, []⟩
  | ⟨.openParen, _⟩ :: ⟨.closeParen, _⟩ :: rest =>
    .ok ⟨(.nil, rest), by simp only [List.length_cons]; omega⟩
  | ⟨.openParen, _⟩ :: rest =>
    match readUnion rest with
    | .error e => .error e
    | .ok ⟨(ty, rest'), h⟩ =>
      match expect .closeParen ')' rest' with
      | .error e => .error e
      | .ok ⟨(_, rest''), h'⟩ =>
        .ok ⟨(ty, rest''), by simp only [List.length_cons] at h h' ⊢; omega⟩
  | ⟨.openBracket, _⟩ :: rest =>
    match readUnion rest with
    | .error e => .error e
    | .ok ⟨(first, rest'), h⟩ =>
      match readElements rest' with
      | .error e => .error e
      | .ok ⟨(more, rest''), h'⟩ =>
        match expect .closeBracket ']' rest'' with
        | .error e => .error e
        | .ok ⟨(_, rest'''), h''⟩ =>
          .ok ⟨(.tuple (first :: more), rest'''), by
            simp only [List.length_cons] at h h' h'' ⊢; omega⟩
  | ⟨.name name, _⟩ :: rest =>
    if name = "map" then
      match readParameter rest with
      | .error e => .error e
      | .ok ⟨(ty, rest'), h⟩ =>
        .ok ⟨(.map ty, rest'), by simp only [List.length_cons] at h ⊢; omega⟩
    else if name = "table" then
      match readParameter rest with
      | .error e => .error e
      | .ok ⟨(ty, rest'), h⟩ =>
        .ok ⟨(.table ty, rest'), by simp only [List.length_cons] at h ⊢; omega⟩
    else
      match Builtin.ofWord? name with
      | some word => .ok ⟨(.builtin word, rest), by simp⟩
      | none => .ok ⟨(.named name, rest), by simp⟩
  | t :: rest => .error ⟨.unexpectedCharacter, t :: rest⟩
termination_by 5 * ts.length + 1
decreasing_by
  · simp only [List.length_cons]; omega
  · simp only [List.length_cons]; omega
  · simp only [List.length_cons] at h ⊢; omega
  · simp only [List.length_cons]; omega
  · simp only [List.length_cons]; omega

/-- The further members of a tuple, each after its comma. -/
def readElements (ts : List Lexeme) : ReadMore ts (List TypeExpr) :=
  match ts with
  | ⟨.comma, _⟩ :: rest =>
    match readUnion rest with
    | .error e => .error e
    | .ok ⟨(ty, rest'), h⟩ =>
      match readElements rest' with
      | .error e => .error e
      | .ok ⟨(more, rest''), h'⟩ =>
        .ok ⟨(ty :: more, rest''), by simp only [List.length_cons] at h h' ⊢; omega⟩
  | ts => .ok ⟨([], ts), Nat.le_refl _⟩
termination_by 5 * ts.length + 0
decreasing_by
  · simp only [List.length_cons]; omega
  · simp only [List.length_cons] at h ⊢; omega

/-- A type between angle brackets. -/
def readParameter (ts : List Lexeme) : Read ts TypeExpr :=
  match expect .less '<' ts with
  | .error e => .error e
  | .ok ⟨(_, rest), h⟩ =>
    match readUnion rest with
    | .error e => .error e
    | .ok ⟨(ty, rest'), h'⟩ =>
      match expect .greater '>' rest' with
      | .error e => .error e
      | .ok ⟨(_, rest''), h''⟩ => .ok ⟨(ty, rest''), by simp only at h h' h'' ⊢; omega⟩
termination_by 5 * ts.length + 0
decreasing_by simp only at h; omega

end

-- The equations of the reader are stated here, once, and not by whichever proof needs one first.
attribute [grind =] expect readSuffixes readUnion readAlternatives readIntersection readOperands
  readPostfix readPrimary readElements readParameter

/-- The byte offset of the first of the tokens that are left of a text of `length` bytes. -/
def offsetOf (length : Nat) : List Lexeme → Nat
  | [] => length
  | t :: _ => t.offset

/-- The type expression that a text is, or where it stops being one. -/
def parse (text : String) : Except SyntaxError TypeExpr :=
  let cs := text.toList
  let stopped (stop : Stop) : SyntaxError := ⟨text, offsetOf (byteLength cs) stop.rest, stop.cause⟩
  match readUnion (scan 0 cs) with
  | .error stop => .error (stopped stop)
  | .ok ⟨(ty, []), _⟩ => .ok ty
  | .ok ⟨(_, rest), _⟩ => .error (stopped ⟨.trailingInput, rest⟩)

end FunctionApp.TypeExpr
