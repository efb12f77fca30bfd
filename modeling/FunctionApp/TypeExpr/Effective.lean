import FunctionApp.TypeExpr.Basic

/-!
# The effective form of a type

An intersection stands for its one member other than `readonly`; one with none or several such
members stands for nothing. `effective` replaces every intersection that is reached through unions
and through such members, and fails with the first that cannot be replaced.
-/

namespace FunctionApp.TypeExpr

def isReadonly : TypeExpr → Bool
  | .builtin .readonly => true
  | _ => false

mutual

/-- The effective form of a type, or the intersection that has none. -/
def effective : TypeExpr → Except TypeExpr TypeExpr
  | .intersection members => effectiveOfSingle (.intersection members) members
  | .union members => do return unionOf (← effectiveMembers members)
  | ty => .ok ty

/-- The effective form of the one member of `members` other than `readonly`, where `whole` is the
intersection that they belong to. -/
def effectiveOfSingle (whole : TypeExpr) : List TypeExpr → Except TypeExpr TypeExpr
  | [] => .error whole
  | ty :: rest =>
    if ty.isReadonly then effectiveOfSingle whole rest
    else if rest.all isReadonly then effective ty
    else .error whole

def effectiveMembers : List TypeExpr → Except TypeExpr (List TypeExpr)
  | [] => .ok []
  | ty :: rest => do
    let first ← effective ty
    return first :: (← effectiveMembers rest)

end

end FunctionApp.TypeExpr
