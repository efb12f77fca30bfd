import FunctionApp.Proofs.Yaml.PlainText

/-!
# Documents in lines

A document in block style is a list of lines, each of which is a comment, or empty, or has a key and
perhaps a scalar. Where a line stands settles which blocks end before it and which ones start with
it, so that the tokens of a document can be told line by line (`outlineLines`).
-/

namespace FunctionApp.Yaml

/-! ## Lines -/

/-- What stands behind a key and its colon. -/
inductive Content where
  | nothing
  | plain (text : String)
  | quoted (text : String)

inductive Line where
  | empty
  | comment (text : String)
  /-- A key in the column of its line, or behind the hyphen in that column that makes it the first
  one of an item. -/
  | entry (column : Nat) (item : Bool) (key : String) (content : Content)

def Content.print : Content → List Char
  | .nothing => []
  | .plain text => ' ' :: text.toList
  | .quoted text => ' ' :: '"' :: (text.toList ++ ['"'])

namespace Line

/-- The column in which a key stands. -/
def keyColumn (column : Nat) (item : Bool) : Nat := if item then column + 2 else column

def print : Line → List Char
  | .empty => []
  | .comment text => '#' :: text.toList
  | .entry column item key content =>
    List.replicate column ' ' ++
      ((if item then ['-', ' '] else []) ++ (key.toList ++ ':' :: content.print))

end Line

def printLines : List Line → List Char
  | [] => []
  | line :: lines => line.print ++ '\n' :: printLines lines

theorem printLines_eq_flatten (lines : List Line) :
    printLines lines = (lines.map fun x => x.print ++ ['\n']).flatten := by
  induction lines with
  | nil => rfl
  | cons x lines ih => simp [printLines, ih]

/-! ## Lines that are well formed -/

/-- Whether a text may be a key: a plain word that a colon is not too far behind. -/
def isKey (key : List Char) : Bool :=
  isPlain key && key.all (fun c => !isSpaceOrTab c) && key.head? != some '\ufeff' &&
    byteCount key ≤ 1024

/-- Whether a text stands for itself between quotation marks, without blanks. -/
def isSimple (text : List Char) : Bool :=
  text.all fun c => isAllowed c && !isSpaceOrTab c && !isBreak c && c != '"' && c != '\\'

def Content.isFormed : Content → Bool
  | .nothing => true
  | .plain text => isPlain text.toList
  | .quoted text => isSimple text.toList

def Line.isFormed : Line → Bool
  | .empty => true
  | .comment text => text.toList.all fun c => isAllowed c && !isBreak c
  | .entry _ _ key content => isKey key.toList && content.isFormed

def Content.isNothing : Content → Bool
  | .nothing => true
  | .plain _ | .quoted _ => false

/-- The column in which the first text of some lines starts. -/
def firstColumn : List Line → Nat
  | [] => 0
  | .empty :: lines => firstColumn lines
  | .comment _ :: _ => 0
  | .entry column _ _ _ :: _ => column

/-- Whether what follows a key with a scalar is not further right than that key. -/
def areAligned : List Line → Bool
  | [] => true
  | .entry column item _ content :: lines =>
    (content.isNothing || firstColumn lines ≤ Line.keyColumn column item) && areAligned lines
  | _ :: lines => areAligned lines

/-- Lines that are a document. -/
structure AreFormed (lines : List Line) : Prop where
  each : ∀ x ∈ lines, x.isFormed = true
  aligned : areAligned lines = true

namespace AreFormed

variable {x : Line} {lines : List Line}

theorem tail (h : AreFormed (x :: lines)) : AreFormed lines := by
  refine ⟨fun y hy => h.each y (.tail _ hy), ?_⟩
  have aligned := h.aligned
  cases x with
  | empty => exact aligned
  | comment text => exact aligned
  | entry column item key content => exact (Bool.and_eq_true_iff.1 aligned).2

/-- What follows a key with a scalar. -/
theorem firstColumn_le {column : Nat} {item : Bool} {key : String} {content : Content}
    (h : AreFormed (.entry column item key content :: lines)) (hc : content.isNothing = false) :
    firstColumn lines ≤ Line.keyColumn column item := by
  have aligned := (Bool.and_eq_true_iff.1 h.aligned).1
  simpa [hc] using aligned

end AreFormed

/-! ## Tokens line by line -/

/-- The tokens so far, the last one first, with the columns of the open blocks. -/
structure Outline where
  tokens : List Token
  /-- The column of the current block, `-1` outside all blocks. -/
  indent : Int
  /-- The columns of the blocks around it. -/
  outer : List Int

namespace Outline

def start : Outline := ⟨[], -1, []⟩

def emit (tokens : List Token) (b : Outline) : Outline := { b with tokens := tokens ++ b.tokens }

/-- With a block in a column, if that is further right than the current one. -/
def open_ (column : Nat) (token : Token) (b : Outline) : Outline :=
  if b.indent < column then ⟨token :: b.tokens, column, b.indent :: b.outer⟩ else b

/-- Without the blocks further right than a column. -/
def closeFrom (column : Int) (tokens : List Token) (indent : Int) : List Int → Outline
  | [] => if column < indent then ⟨.blockEnd :: tokens, -1, []⟩ else ⟨tokens, indent, []⟩
  | next :: outer =>
    if column < indent then closeFrom column (.blockEnd :: tokens) next outer
    else ⟨tokens, indent, next :: outer⟩

def close (column : Int) (b : Outline) : Outline := closeFrom column b.tokens b.indent b.outer

/-- With a key in a column of a line. -/
def key (line column : Nat) (key : String) (b : Outline) : Outline :=
  (b.open_ column .blockMappingStart).emit [.value, .scalar key .plain line, .key]

def item (column : Nat) (b : Outline) : Outline :=
  (b.open_ column .blockSequenceStart).emit [.blockEntry]

end Outline

def Content.outline (line : Nat) : Content → Outline → Outline
  | .nothing, b => b
  | .plain text, b => b.emit [.scalar text .plain line]
  | .quoted text, b => b.emit [.scalar text .doubleQuoted line]

/-- The tokens with those of a line. -/
def Line.outline (line : Nat) : Line → Outline → Outline
  | .empty, b => b
  | .comment _, b => b
  | .entry column item key content, b =>
    let b := b.close column
    let b := if item then b.item column else b
    content.outline line (b.key line (keyColumn column item) key)

/-- The tokens with those of lines from a line on. -/
def outlineLines (line : Nat) : List Line → Outline → Outline
  | [], b => b
  | x :: lines, b => outlineLines (line + 1) lines (x.outline line b)

/-! ## Characters of a document -/

theorem isAllowed_print_content {content : Content} (h : content.isFormed = true) :
    ∀ c ∈ content.print, isAllowed c = true := by
  cases content with
  | nothing => nofun
  | plain text =>
    rintro c (_ | ⟨_, hc⟩)
    · decide
    · exact isAllowed_of_isPlain h c hc
  | quoted text =>
    simp only [Content.isFormed, isSimple, List.all_eq_true, Bool.and_eq_true] at h
    rintro c (_ | ⟨_, _ | ⟨_, hc⟩⟩)
    · decide
    · decide
    · rcases List.mem_append.1 hc with hc | (_ | ⟨_, ⟨⟩⟩)
      · exact (h c hc).1.1.1.1
      · decide

theorem isAllowed_print {x : Line} (h : x.isFormed = true) : ∀ c ∈ x.print, isAllowed c = true := by
  cases x with
  | empty => nofun
  | comment text =>
    rw [Line.isFormed, List.all_eq_true] at h
    rintro c (_ | ⟨_, hc⟩)
    · decide
    · exact (Bool.and_eq_true_iff.1 (h c hc)).1
  | entry column item key content =>
    obtain ⟨hk, hcontent⟩ := Bool.and_eq_true_iff.1 h
    rw [isKey, Bool.and_eq_true, Bool.and_eq_true, Bool.and_eq_true] at hk
    intro c hc
    rcases List.mem_append.1 hc with hc | hc
    · rw [List.eq_of_mem_replicate hc]
      decide
    rcases List.mem_append.1 hc with hc | hc
    · cases item with
      | false => cases hc
      | true =>
        rcases hc with _ | ⟨_, _ | ⟨_, ⟨⟩⟩⟩
        · decide
        · decide
    rcases List.mem_append.1 hc with hc | (_ | ⟨_, hc⟩)
    · exact isAllowed_of_isPlain hk.1.1.1 c hc
    · decide
    · exact isAllowed_print_content hcontent c hc

theorem isAllowed_printLines {lines : List Line} (h : AreFormed lines) :
    ∀ c ∈ printLines lines, isAllowed c = true := by
  induction lines with
  | nil => nofun
  | cons x lines ih =>
    intro c hc
    rcases List.mem_append.1 hc with hc | (_ | ⟨_, hc⟩)
    · exact isAllowed_print (h.each x (.head _)) c hc
    · decide
    · exact ih h.tail c hc

end FunctionApp.Yaml
