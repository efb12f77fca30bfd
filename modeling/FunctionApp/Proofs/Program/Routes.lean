import FunctionApp.Proofs.Handler.RouteText
import FunctionApp.Proofs.Program.Reading

/-!
# Routes of programs

What the segments of a route can be when a program is read: the path of a service is cut at its
slashes and not searched for placeholders, and a literal segment of a handler's path is not in
braces as a whole. So the text of a route shows more placeholders than its check looks at where the
path of the service has one, or a literal segment has one behind a slash
(`Program.route_read_back`).
-/

namespace FunctionApp

namespace Program

variable {program : Program} {document : Document} {service : Service} {handler : Function}

theorem bracedName?_of_literal {location : Location} {w : Written.PathSegment} {text : String}
    (h : readSegment location w = .ok (.literal text)) : bracedName? text = none := by
  unfold readSegment at h
  cases w with
  | text whole =>
    dsimp only at h
    split at h
    · cases h
    · cases h
    · next plain =>
      cases h
      exact plain
  | rest name type =>
    obtain ⟨type, -, h⟩ := bind_eq_ok.1 h
    cases h
  | param name type =>
    obtain ⟨type, -, h⟩ := bind_eq_ok.1 h
    cases h

example : bracedName? "\x7bid\x7d" = some "id" ∧ bracedName? "all/\x7bid\x7d" = none := by
  decide +kernel

/-- The path of a function is that of its written segments, each read alone. -/
theorem path_of_readFunction {name : String} {default : Qualifier} {w : Written.Function}
    (h : readFunction name default w = .ok handler) :
    w.path.mapM (readSegment (place name w.position)) = .ok handler.path := by
  unfold readFunction at h
  dsimp only at h
  obtain ⟨qualifier, -, h⟩ := bind_eq_ok.1 h
  obtain ⟨path, read, h⟩ := bind_eq_ok.1 h
  rw [read]
  -- The name is given, derived or missing, and the result is written or left out.
  split at h
  all_goals
    obtain ⟨name, hname, h⟩ := bind_eq_ok.1 h
    obtain ⟨params, -, h⟩ := bind_eq_ok.1 h
    split at h
    all_goals
      obtain ⟨returns, -, h⟩ := bind_eq_ok.1 h
      cases h
      rfl

theorem basePath_of_readService {name : String} {w : Written.Service}
    (h : readService name w = .ok service) : service.basePath = splitPath (w.path.getD "") := by
  unfold readService at h
  dsimp only at h
  split at h
  all_goals
    obtain ⟨listener, -, h⟩ := bind_eq_ok.1 h
    obtain ⟨functions, -, h⟩ := bind_eq_ok.1 h
    obtain ⟨annotations, -, h⟩ := bind_eq_ok.1 h
    cases h
    rfl

theorem not_mem_of_mem_splitPath {path segment : String} (h : segment ∈ splitPath path) :
    '/' ∉ segment.toList :=
  Text.not_mem_of_mem_splitOnChar (List.mem_filter.1 h).1

section Read

variable {source : String} (h : read source = .ok program) (hd : document ∈ program.documents)
  (hs : service ∈ document.services)

include h hd hs

theorem not_mem_of_mem_basePath {segment : String} (mem : segment ∈ service.basePath) :
    '/' ∉ segment.toList := by
  unfold read at h
  split at h
  · obtain ⟨d, -, readD⟩ := exists_written_document h hd
    obtain ⟨-, s, -, readS⟩ := exists_written_service readD hs
    rw [basePath_of_readService readS] at mem
    exact not_mem_of_mem_splitPath mem
  · cases h

/-- No literal segment of a handler's path is in braces. -/
theorem bracedName?_of_mem_path (hf : handler ∈ service.functions) {text : String}
    (mem : .literal text ∈ handler.path) : bracedName? text = none := by
  unfold read at h
  split at h
  · obtain ⟨d, -, s, -, w, -, -, readF⟩ := exists_written_function h hd hs hf
    obtain ⟨segment, -, readS⟩ := exists_of_mem_mapM (path_of_readFunction readF) mem
    exact bracedName?_of_literal readS
  · cases h

/-- **The placeholders of a route are read back from its text** if the path of the service has none,
no literal segment of the handler's path has one behind a slash, and no rest parameter has a name
with a slash; else they are not. The check of the route is passed just if the tokens it should show
are distinct, whatever its text shows. -/
theorem route_read_back (hf : handler ∈ service.functions) :
    let route := Route.build service.basePath handler.path
    (route.check = .ok () ↔ (route.params.map (·.token)).Nodup) ∧
      (readPlaceholders route.path = route.params.map (fun p => (p.token, p.rest)) ↔
        (∀ segment ∈ service.basePath, bracedName? segment = none) ∧
        (∀ text, .literal text ∈ handler.path → '/' ∈ text.toList → readPlaceholders text = []) ∧
        ∀ name type, .rest name type ∈ handler.path → '/' ∉ name.toList) := by
  have unread {text : String} (slash : '/' ∉ text.toList) :
      readPlaceholders text = [] ↔ bracedName? text = none := by
    rw [readPlaceholders_of_not_mem slash, readPlaceholder?]
    cases bracedName? text <;> simp
  refine ⟨Route.check_eq_ok_iff, (Route.read_back_iff _ _).trans (and_congr ?_ ?_)⟩
  · refine forall₂_congr fun segment mem => ?_
    exact unread (not_mem_of_mem_basePath h hd hs mem)
  · constructor
    · intro each
      exact ⟨fun text mem _ => each _ mem, fun name type mem => each _ mem⟩
    · rintro ⟨literals, rests⟩ segment mem
      cases segment with
      | literal text =>
        by_cases slash : '/' ∈ text.toList
        · exact literals text mem slash
        · exact (unread slash).2 (bracedName?_of_mem_path h hd hs hf mem)
      | param name type => trivial
      | rest name type => exact rests name type mem

end Read

/-! ## Two program files -/

/-- A program file with one document, and in it an HTTP service at a path with one resource. -/
def resourceFile (path segments : String) : String :=
  "\x7bname: app, documents: [\x7bname: main, services: [\x7bpath: \"" ++ path ++
    "\", listener_type: \"azure_functions:HttpListener\", functions: [\x7baccessor: get, path: [" ++
    segments ++ "]\x7d]\x7d]\x7d]\x7d"

/-- The paths of the handlers of a program file, each behind the path of its service. -/
def handlerPaths (source : String) : List (List String × List PathSegment) :=
  match read source with
  | .ok program => program.documents.flatMap fun d => d.services.flatMap fun s =>
    s.functions.map fun f => (s.basePath, f.path)
  | .error _ => []

theorem exists_handler_of_mem {source : String} {base : List String} {path : List PathSegment}
    (h : (base, path) ∈ handlerPaths source) :
    ∃ program, read source = .ok program ∧ ∃ document ∈ program.documents,
      ∃ service ∈ document.services, ∃ handler ∈ service.functions,
        service.basePath = base ∧ handler.path = path := by
  unfold handlerPaths at h
  split at h
  · next program found =>
    obtain ⟨document, hd, h⟩ := List.mem_flatMap.1 h
    obtain ⟨service, hs, h⟩ := List.mem_flatMap.1 h
    obtain ⟨handler, hf, same⟩ := List.mem_map.1 h
    obtain ⟨rfl, rfl⟩ := Prod.mk.inj same
    exact ⟨program, found, document, hd, service, hs, handler, hf, rfl, rfl⟩
  · cases h

theorem handlerPaths_orders :
    handlerPaths (resourceFile "/orders/" "\"\x7bid\x7d\", \x7brest: tail\x7d") =
      [(["orders"], [.param (some "id") (.builtin .string), .rest "tail" (.builtin .string)])] := by
  decide +kernel

theorem handlerPaths_twice :
    handlerPaths (resourceFile "/orders/\x7bid\x7d" "\"\x7bid\x7d\"") =
      [(["orders", "\x7bid\x7d"], [.param (some "id") (.builtin .string)])] := by
  decide +kernel

theorem route_read_back_orders :
    ∃ program, read (resourceFile "/orders/" "\"\x7bid\x7d\", \x7brest: tail\x7d") = .ok program ∧
      ∃ document ∈ program.documents, ∃ service ∈ document.services,
        ∃ handler ∈ service.functions,
          (Route.build service.basePath handler.path).check = .ok () ∧
          readPlaceholders (Route.build service.basePath handler.path).path =
            [("id", false), ("tail", true)] := by
  obtain ⟨program, h, document, hd, service, hs, handler, hf, base, path⟩ :=
    exists_handler_of_mem (handlerPaths_orders ▸ List.mem_singleton_self _)
  obtain ⟨checked, shown⟩ := route_read_back h hd hs hf
  refine ⟨program, h, document, hd, service, hs, handler, hf, ?_, ?_⟩
  · apply checked.2
    rw [base, path]
    decide +kernel
  · have params : (Route.build service.basePath handler.path).params.map
        (fun p => (p.token, p.rest)) = [("id", false), ("tail", true)] := by
      rw [base, path]
      decide +kernel
    rw [← params]
    apply shown.2
    rw [base, path]
    refine ⟨by decide +kernel, by simp, fun name type mem => ?_⟩
    have tail : name = "tail" ∧ type = .builtin .string := by simpa using mem
    rw [tail.1]
    decide

/-- The path of a service may bring a placeholder with the token of a parameter: the route is
accepted, but its text shows the token twice. -/
theorem route_not_read_back :
    ∃ program, read (resourceFile "/orders/\x7bid\x7d" "\"\x7bid\x7d\"") = .ok program ∧
      ∃ document ∈ program.documents, ∃ service ∈ document.services,
        ∃ handler ∈ service.functions,
          let route := Route.build service.basePath handler.path
          route.check = .ok () ∧ route.path = "orders/\x7bid\x7d/\x7bid\x7d" ∧
            route.params.map (fun p => (p.token, p.rest)) = [("id", false)] ∧
            readPlaceholders route.path = [("id", false), ("id", false)] := by
  obtain ⟨program, h, document, hd, service, hs, handler, hf, base, path⟩ :=
    exists_handler_of_mem (handlerPaths_twice ▸ List.mem_singleton_self _)
  refine ⟨program, h, document, hd, service, hs, handler, hf, ?_⟩
  rw [base, path]
  decide +kernel

end Program

end FunctionApp
