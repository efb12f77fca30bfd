import FunctionApp.Json.Basic

/-!
# Overlaying one JSON value on another

`overlay base top` takes `top` wherever it is not an object over an object. Where both are objects
the members of `base` stay in their order, a member of both is overlaid in its place, and the new
members of `top` follow in the order of `top`.
-/

namespace FunctionApp.Json

mutual

/-- `top` laid over `base`. -/
def overlay (base : Json) : Json → Json
  | .object tops =>
    match base with
    | .object members => .object (overlayMembers members tops)
    | _ => .object tops
  | top => top

/-- The members `tops` laid in turn over the members of an object. -/
def overlayMembers (members : List (String × Json)) : List (String × Json) → List (String × Json)
  | [] => members
  | (key, top) :: rest =>
    match members.lookup key with
    | some value => overlayMembers (insertMember members key (overlay value top)) rest
    | none => overlayMembers (members ++ [(key, top)]) rest

end

attribute [grind =] overlay overlayMembers

end FunctionApp.Json
