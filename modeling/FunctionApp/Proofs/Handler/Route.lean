import FunctionApp.Handler.Assembly

/-!
# The placeholders of a route

The route of an HTTP handler has the placeholders that the path of the handler brings, in the order
of the path and with their types; the path of the service brings none, and outside HTTP there is no
route.
-/

namespace FunctionApp

/-- The type of a placeholder in a path, and whether it takes all further segments. -/
def PathSegment.placeholder? : PathSegment → Option (TypeExpr × Bool)
  | .literal _ => none
  | .param _ type => some (type, false)
  | .rest _ type => some (type, true)

theorem RouteSegment.param?_ofPath (position : Nat) (segment : PathSegment) :
    ((ofPath position segment).param?.map fun p => (p.type, p.rest)) = segment.placeholder? := by
  cases segment with
  | param name type => cases name <;> rfl
  | _ => rfl

/-- The path of a service brings no placeholder. -/
theorem Route.params_build (base : List String) (relative : List PathSegment) :
    (build base relative).params =
      ((relative.zipIdx base.length).map fun (segment, position) =>
        RouteSegment.ofPath position segment).filterMap RouteSegment.param? := by
  have none : (base.map RouteSegment.literal).filterMap RouteSegment.param? = [] := by
    simp [RouteSegment.param?]
  rw [params, build, List.filterMap_append, none, List.nil_append]

namespace ServiceUnit

variable (unit : ServiceUnit) (handler : Function)

/-- The segments that the path of a handler adds to the path of its service. -/
def relativeSegments : List RouteSegment :=
  if unit.listener = .http then
    (handler.path.zipIdx unit.service.basePath.length).map fun (segment, position) =>
      .ofPath position segment
  else []

/-- The text of an HTTP route is the path of the service with the path of the handler behind it. -/
theorem path_route (h : unit.listener = .http) :
    (unit.route handler).path = String.intercalate "/"
      (unit.service.basePath ++ (unit.relativeSegments handler).map RouteSegment.text) := by
  have base : (unit.service.basePath.map RouteSegment.literal).map RouteSegment.text =
      unit.service.basePath := by
    rw [List.map_map]
    exact List.map_id _
  rw [route, if_pos h, relativeSegments, if_pos h, Route.path, Route.build, List.map_append, base]

theorem params_route :
    (unit.route handler).params = (unit.relativeSegments handler).filterMap RouteSegment.param? := by
  unfold route relativeSegments
  split
  · exact Route.params_build unit.service.basePath handler.path
  · rfl

/-- The placeholders of a route are those of the path of its handler. -/
theorem declared_params_route :
    (unit.route handler).params.map (fun p => (p.type, p.rest)) =
      if unit.listener = .http then handler.path.filterMap PathSegment.placeholder? else [] := by
  rw [params_route, relativeSegments]
  split
  · calc
      _ = (handler.path.zipIdx unit.service.basePath.length).filterMap
            (PathSegment.placeholder? ∘ Prod.fst) := by
        rw [List.map_filterMap, List.filterMap_map]
        congr 1
        funext x
        exact RouteSegment.param?_ofPath x.2 x.1
      _ = handler.path.filterMap PathSegment.placeholder? := by
        rw [← List.filterMap_map, List.zipIdx_map_fst]
  · rfl

end ServiceUnit

end FunctionApp
