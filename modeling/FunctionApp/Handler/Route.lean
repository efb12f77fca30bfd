import FunctionApp.Diagnostic.Problem
import FunctionApp.Program.Basic
import FunctionApp.Text.Repetition

/-!
# Routes

The route of an HTTP handler is the path of its service with the path of the handler behind it. A
parameter that is no identifier has its position in the whole route for a name, so that the host can
refer to it.
-/

namespace FunctionApp

structure RouteParam where
  token : String
  type : TypeExpr
  /-- Whether it takes all further segments. -/
  rest : Bool
deriving DecidableEq

inductive RouteSegment where
  | literal (text : String)
  | placeholder (param : RouteParam)
deriving DecidableEq

namespace RouteSegment

/-- A segment as it stands in the route. -/
def text : RouteSegment → String
  | .literal text => text
  | .placeholder p => (if p.rest then "\x7b*" else "\x7b") ++ p.token ++ "\x7d"

/-- What a segment adds to the name of the function. -/
def label : RouteSegment → String
  | .literal text => text
  | .placeholder p => p.token

def param? : RouteSegment → Option RouteParam
  | .literal _ => none
  | .placeholder p => some p

/-- The segment of the route for a segment of a handler's path at a position of the route. -/
def ofPath (position : Nat) : PathSegment → RouteSegment
  | .literal text => .literal text
  | .param (some name) type =>
    .placeholder ⟨if isIdentifier name then name else toString position, type, false⟩
  | .param none type => .placeholder ⟨toString position, type, false⟩
  | .rest name type => .placeholder ⟨name, type, true⟩

end RouteSegment

/-- The route of a handler; outside HTTP it is empty. -/
structure Route where
  segments : List RouteSegment
deriving DecidableEq

namespace Route

def empty : Route := ⟨[]⟩

/-- The route of the path of a service and the path of a handler. -/
def build (base : List String) (relative : List PathSegment) : Route :=
  ⟨base.map .literal ++
    (relative.zipIdx base.length).map fun (segment, position) => .ofPath position segment⟩

/-- The route as text, without a slash at its start. -/
def path (route : Route) : String := String.intercalate "/" (route.segments.map RouteSegment.text)

/-- What the route adds to the name of the function. -/
def labels (route : Route) : List String := route.segments.map RouteSegment.label

def params (route : Route) : List RouteParam := route.segments.filterMap RouteSegment.param?

/-- Checks that no two placeholders have the same token. -/
def check (route : Route) : Except Problem Unit :=
  match Text.firstRepeated? (route.params.map (·.token)) with
  | some token => .error (.duplicatePathParam route.path token)
  | none => .ok ()

end Route

end FunctionApp
