/-!
# Source locations

A place in a source document. Lines and columns count from one, and a line of zero says that the
place in the document is not known.
-/

namespace FunctionApp

/-- A place in a source document. -/
structure Location where
  document : String
  line : Nat
  column : Nat
deriving DecidableEq, Repr, Inhabited

namespace Location

def startOf (document : String) : Location := ⟨document, 1, 1⟩

/-- A document without a known place in it. -/
def within (document : String) : Location := ⟨document, 0, 0⟩

def text (location : Location) : String :=
  if location.line = 0 then location.document
  else location.document ++ ":" ++ toString location.line ++ ":" ++ toString location.column

end Location

end FunctionApp
