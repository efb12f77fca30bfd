import FunctionApp.Handler.Trigger

/-!
# The payload parameter

Which parameter of a handler takes the body of the request or the data of the trigger. A parameter
with an annotation has the role that it gives. Without one, a parameter of an HTTP handler takes the
body if its type is structured and a query value if it is not; behind any other trigger it takes the
data. Only one parameter can, and one with an annotation comes first.
-/

namespace FunctionApp

/-- A parameter whose role is to be found. -/
structure Candidate where
  name : String
  type : TypeExpr
  /-- The role that its annotation gives. -/
  explicit : Option Role

/-- What the members of a type other than `()` have in common. -/
inductive Shape where
  | structured
  | basic
  | mixed
deriving DecidableEq, Repr

def Shape.of (program : Program) (ty : TypeExpr) : Shape :=
  let members := ty.nonNilMembers
  if !members.any program.isStructured then .basic
  else if members.all program.isStructured then .structured
  else .mixed

/-- The roles of the parameters of a handler. -/
structure RoleAssignment where
  roles : List Role
  /-- The position of the payload parameter. -/
  payload : Option Nat
  /-- Whether an annotation made it the payload parameter. -/
  explicitPayload : Bool
  /-- What is wrong, with the position of the parameter that it is wrong with. -/
  errors : List (Nat × Problem)

namespace RoleAssignment

/-- The parameter at a position takes the payload, unless another one has. -/
def claim (candidates : List Candidate) (index : Nat) (a : RoleAssignment) : RoleAssignment :=
  match a.payload with
  | none => { a with payload := some index }
  | some first =>
    let name := fun i => (candidates[i]?.map (·.name)).getD ""
    { a with errors := a.errors ++ [(index, .ambiguousPayload (name first) (name index))] }

/-- With the role of a further parameter. -/
def addRole (role : Role) (a : RoleAssignment) : RoleAssignment :=
  { a with roles := a.roles ++ [role] }

def addError (index : Nat) (problem : Problem) (a : RoleAssignment) : RoleAssignment :=
  { a with errors := a.errors ++ [(index, problem)] }

/-- The payload parameters by annotation. -/
def claimExplicit (candidates : List Candidate) : RoleAssignment :=
  let marked := candidates.zipIdx.filter fun (c, _) => c.explicit == some .payload
  marked.foldl (fun a (_, index) => a.claim candidates index) ⟨[], none, !marked.isEmpty, []⟩

/-- The role of the parameter at a position. -/
def assign (program : Program) (listener : Listener) (candidates : List Candidate)
    (a : RoleAssignment) (candidate : Candidate) (index : Nat) : RoleAssignment :=
  match candidate.explicit with
  | some role => a.addRole role
  | none =>
    if listener ≠ .http then (a.claim candidates index).addRole .payload
    else
      match Shape.of program candidate.type with
      | .basic => a.addRole .query
      | .structured => (a.claim candidates index).addRole .payload
      | .mixed =>
        (a.addError index (.mixedUnion candidate.name candidate.type.print)).addRole .payload

end RoleAssignment

/-- The roles of the parameters of a handler. -/
def assignRoles (program : Program) (listener : Listener) (candidates : List Candidate) :
    RoleAssignment :=
  candidates.zipIdx.foldl
    (fun a (candidate, index) => a.assign program listener candidates candidate index)
    (RoleAssignment.claimExplicit candidates)

end FunctionApp
