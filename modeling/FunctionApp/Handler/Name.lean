import FunctionApp.Handler.Route
import FunctionApp.Service.Extraction

/-!
# Names of functions

An HTTP handler is named for its method and its route, and any other one for its service, followed
by its own name if the service has several.
-/

namespace FunctionApp

/-- Whether the host takes a character in the name of a function. -/
def isNameChar (c : Char) : Bool := c.isAlphanum || c == '_' || c == '-'

/-- Whether the host takes a name for a function: at most 128 of its characters, of which the first
is a letter. -/
def isFunctionName (name : String) : Bool :=
  match name.toList with
  | [] => false
  | c :: rest => c.isAlpha && rest.all isNameChar && rest.length ≤ 127

/-- A name with an underscore in the place of every character that the host does not take. -/
def sanitizeName (name : String) : String :=
  name.map fun c => if isNameChar c then c else '_'

def functionName (unit : ServiceUnit) (handler : Function) (route : Route) : String :=
  let raw :=
    if unit.listener = .http then
      let accessor := handler.accessor.getD handler.name
      String.intercalate "-" (accessor.map Char.toLower :: route.labels)
    else
      let base := unit.service.name.getD handler.name
      if 1 < unit.handlers.length then base ++ "-" ++ handler.name else base
  sanitizeName raw

end FunctionApp
