import FunctionApp.Proofs.App.Analysis
import FunctionApp.Proofs.Binding.Identity
import FunctionApp.Proofs.Handler.Arguments
import FunctionApp.Proofs.Handler.Output
import FunctionApp.Proofs.Handler.Route
import FunctionApp.Proofs.Shim.Variables

/-!
# A descriptor and its shim agree

The bindings of a function are those that its shim names, and no others: the trigger, one binding
for each parameter that an annotation makes an input, and the output (`descriptor_agrees`). The host
therefore delivers everything under the name that the shim reads.
-/

namespace FunctionApp

open List (Forall₂)

/-! ## What a shim names -/

namespace Source

/-- Whether a value comes from a binding of its own. -/
def isInput : Source → Bool
  | .inputBinding _ | .metadata _ => true
  | _ => false

/-- The token of a placeholder, and whether it takes all further segments. -/
def placeholder? : Source → Option (String × Bool)
  | .pathParam token => some (token, false)
  | .restPath token => some (token, true)
  | _ => none

/-- Where a shim finds the value of an input. -/
def ofInput : BindingKind × Direction × String → Source
  | (.metadata, _, name) => .metadata name
  | (_, _, name) => .inputBinding name

end Source

/-- The binding that a statement writes to, and its kind. -/
def Statement.written? : Statement → Option (String × BindingKind)
  | .marshal binding kind _ _ => some (binding, kind)
  | _ => none

def Statement.source? : Statement → Option Source
  | .bind _ value => some value.source
  | _ => none

/-- The sources of the values that a shim takes out of the envelope. -/
def Shim.sources (shim : Shim) : List Source := shim.statements.filterMap Statement.source?

section Assemble

variable (function handler : String) (values : List Expression) (type : TypeExpr)
  (marshal : Option String → Option Statement)

theorem Shim.sources_assemble
    (hm : ∀ s ∈ marshal (result? values type), s.source? = none) :
    (assemble function handler values type marshal).sources = values.map (·.source) := by
  have bound : ((binds values).map fun b => Statement.bind b.1 b.2).filterMap Statement.source? =
      values.map (·.source) := by
    calc
      _ = ((binds values).map (·.2)).map (·.source) := by
        rw [List.filterMap_map, List.map_map, ← List.filterMap_eq_map]
        rfl
      _ = values.map (·.source) := by rw [snd_binds]
  have written : (marshal (result? values type)).toList.filterMap Statement.source? = [] :=
    List.filterMap_eq_nil_iff.2 fun s hs => hm s (Option.mem_toList.1 hs)
  rw [sources, statements_assemble, List.filterMap_append, bound,
    List.filterMap_cons_none (by rfl), written, List.append_nil]

theorem Shim.written_assemble :
    (assemble function handler values type marshal).statements.filterMap Statement.written? =
      ((marshal (result? values type)).bind Statement.written?).toList := by
  have bound : ((binds values).map fun b => Statement.bind b.1 b.2).filterMap
      Statement.written? = [] := by
    refine List.filterMap_eq_nil_iff.2 fun s hs => ?_
    obtain ⟨b, _, rfl⟩ := List.mem_map.1 hs
    rfl
  rw [statements_assemble, List.filterMap_append, bound, List.filterMap_cons_none (by rfl),
    List.nil_append]
  cases marshal (result? values type) with
  | none => rfl
  | some s => cases hs : s.written? <;> simp [hs]

end Assemble

theorem RouteParam.placeholder?_value (p : RouteParam) :
    p.value.source.placeholder? = some (p.token, p.rest) ∧ p.value.source.isInput = false ∧
      ∀ name, p.value.source ≠ .triggerData name := by
  unfold value
  cases p.rest with
  | true => exact ⟨rfl, rfl, fun name e => by cases e⟩
  | false => exact ⟨rfl, rfl, fun name e => by cases e⟩

/-- The data of a trigger comes from the binding of the trigger. -/
theorem Listener.source_extraction (l : Listener) (ty : TypeExpr) :
    (l.extraction ty).source.isInput = false ∧ (l.extraction ty).source.placeholder? = none ∧
      ∀ name, (l.extraction ty).source = .triggerData name → name = l.variable_ := by
  cases l with
  | http => exact ⟨rfl, rfl, fun name e => by cases e⟩
  | _ => exact ⟨rfl, rfl, fun name e => by cases e; rfl⟩

/-- The argument of a parameter comes from the binding that its role adds, or from the trigger, but
never from a placeholder. -/
theorem Role.source_extraction {role : Role} (hr : role ≠ .path) (program : Program)
    (site : ParamSite) :
    (role.identity? site).map Source.ofInput =
        (Option.guard Source.isInput (role.extraction program site).source) ∧
      (role.extraction program site).source.placeholder? = none ∧
      ∀ name, (role.extraction program site).source = .triggerData name →
        name = site.listener.variable_ := by
  cases role with
  | path => exact absurd rfl hr
  | header =>
    unfold extraction
    dsimp only
    cases headerRecord? program site.type with
    | none => exact ⟨rfl, rfl, fun name e => by cases e⟩
    | some record => exact ⟨rfl, rfl, fun name e => by cases e⟩
  | payload =>
    obtain ⟨input, placeholder, data⟩ := site.listener.source_extraction site.type
    refine ⟨?_, placeholder, data⟩
    simp only [extraction, Option.guard, input]
    rfl
  | _ => exact ⟨rfl, rfl, fun name e => by cases e⟩

theorem Listener.route_gives (site : TriggerSite) :
    Gives (fun b => b.field? "route" = some (.text site.route)) (Listener.http.binding site) :=
  .bind fun level => .ok (by rfl)

theorem AppFunction.check_eq_ok (f : AppFunction) (h : f.check = .ok ()) :
    f.trigger.kind.isTrigger = true ∧ (∀ b ∈ f.others, b.kind.isTrigger = false) ∧
      (f.bindings.map (·.name)).Nodup := by
  unfold check at h
  split at h
  · cases h
  · next ht =>
    split at h
    · cases h
    · next ho =>
      split at h
      · cases h
      · next hn =>
        refine ⟨by simpa using ht, fun b hb => ?_, Text.firstRepeated?_eq_none_iff.1 hn⟩
        simpa using List.find?_eq_none.1 ho b hb

/-! ## The inputs of a handler -/

namespace ServiceUnit

variable {program : Program} {unit : ServiceUnit} {mark : Option Annotation} {handler : Function}
  {type : TypeExpr} {f : AppFunction}

/-- The identity of the binding that a parameter asks for, if its annotation makes it an input. A
value that the trigger reports may be given another name than the parameter has. -/
def input? (program : Program) (unit : ServiceUnit) (param : Param) :
    Option (BindingKind × Direction × String) :=
  match unit.mark? program param with
  | .ok (some (.documentInput, _)) => some (.documentInput, .in_, param.name)
  | .ok (some (.blobInput, _)) => some (.blobInput, .in_, param.name)
  | .ok (some (.metadata, a)) =>
    some (.metadata, .in_, ((a.field? "name").map AnnotationValue.joined).getD param.name)
  | _ => none

theorem mark?_gives (program : Program) (unit : ServiceUnit) (param : Param) :
    Gives (fun mark => ∀ role a, mark = some (role, a) → role ≠ .path)
      (unit.mark? program param) := by
  refine .foldlM (fun found a hf => ?_) _ _ fun _ _ h => by cases h
  unfold nextMark
  dsimp only
  split
  · exact .ok hf
  · exact .error _
  · next kind name _ =>
    split
    · exact .error _
    · exact .error _
    · next role hr =>
      refine .ok fun role' a' h => ?_
      cases h
      rintro rfl
      cases kind <;> cases hr

namespace Given

variable {param : Param} {ty : TypeExpr} {found : Option (Role × Annotation)} {a : Argument}

theorem role_ne_path (h : Given program unit param ty found a) :
    roleOf program unit.listener ⟨param.name, ty, found.map (·.1)⟩ ≠ .path := by
  cases found with
  | none =>
    unfold roleOf
    dsimp only [Option.map_none]
    split <;> intro e <;> cases e
  | some found => exact unit.mark?_gives program param _ h.marked _ _ rfl

theorem input?_eq (h : Given program unit param ty found a) :
    unit.input? program param =
      (roleOf program unit.listener ⟨param.name, ty, found.map (·.1)⟩).identity?
        ⟨param.name, ty, found.map (·.2), unit.listener⟩ := by
  rw [input?, h.marked]
  cases found with
  | none =>
    unfold roleOf
    dsimp only [Option.map_none]
    split <;> rfl
  | some found =>
    obtain ⟨role, annotation⟩ := found
    cases role <;> rfl

/-- The binding of an argument is the one that its parameter asks for. -/
theorem identity_binding (h : Given program unit param ty found a) :
    unit.input? program param = a.binding.map Binding.identity := by
  rw [h.input?_eq]
  exact (Role.binding_gives _ _ _ h.binding).symm

/-- The value of an argument comes from the binding that its parameter asks for, or from the
trigger, but never from a placeholder. -/
theorem source_value (h : Given program unit param ty found a) :
    (unit.input? program param).map Source.ofInput =
        Option.guard Source.isInput a.value.source ∧
      a.value.source.placeholder? = none ∧
      ∀ name, a.value.source = .triggerData name → name = unit.listener.variable_ := by
  rw [h.input?_eq, h.value]
  exact Role.source_extraction h.role_ne_path program _

end Given

namespace Assembled

/-- The values of a shim come from the placeholders and then from the parameters. -/
theorem sources_shim (h : Assembled program unit mark handler type f) :
    f.shim.sources = (unit.route handler).params.map (·.value.source) ++
      (unit.arguments program handler).map (·.value.source) := by
  rw [h.shim_eq, Shim.sources_assemble, List.map_append, List.map_map, List.map_map]
  · rfl
  · intro s hs
    obtain ⟨_, _, _, _, rfl⟩ := marshal?_eq_some _ _ _ s hs
    rfl

/-- The values that come from bindings of their own are the inputs of the handler. -/
theorem inputs_sources (h : Assembled program unit mark handler type f) :
    f.shim.sources.filter Source.isInput =
      (handler.params.filterMap (unit.input? program)).map Source.ofInput := by
  have path : ((unit.route handler).params.map (·.value.source)).filter Source.isInput = [] := by
    refine List.filter_eq_nil_iff.2 fun s hs => ?_
    obtain ⟨p, _, rfl⟩ := List.mem_map.1 hs
    rw [p.placeholder?_value.2.1]
    exact Bool.false_ne_true
  have given : handler.params.filterMap (fun param => (unit.input? program param).map Source.ofInput)
      = (unit.arguments program handler).filterMap
          fun a => Option.guard Source.isInput a.value.source :=
    filterMap_eq_of_forall₂ (fun _ _ ⟨_, _, hg⟩ => hg.source_value.1) h.forall₂_arguments
  rw [h.sources_shim, List.filter_append, path, List.nil_append, List.map_filterMap, given,
    ← List.filterMap_eq_filter, List.filterMap_map]
  rfl

/-- The values that come from placeholders are those of the route. -/
theorem placeholders_sources (h : Assembled program unit mark handler type f) :
    f.shim.sources.filterMap Source.placeholder? =
      ((unit.relativeSegments handler).filterMap RouteSegment.param?).map
        fun p => (p.token, p.rest) := by
  have path : ((unit.route handler).params.map (·.value.source)).filterMap Source.placeholder? =
      (unit.route handler).params.map fun p => (p.token, p.rest) := by
    rw [List.filterMap_map, ← List.filterMap_eq_map]
    congr 1
    funext p
    exact p.placeholder?_value.1
  have given : ((unit.arguments program handler).map (·.value.source)).filterMap
      Source.placeholder? = [] := by
    refine List.filterMap_eq_nil_iff.2 fun s hs => ?_
    obtain ⟨a, ha, rfl⟩ := List.mem_map.1 hs
    obtain ⟨_, _, _, given⟩ := h.given_of_mem ha
    exact given.source_value.2.1
  rw [h.sources_shim, List.filterMap_append, path, given, List.append_nil, params_route]

/-- The values that come from the trigger come from its binding. -/
theorem triggerData_sources (h : Assembled program unit mark handler type f) {name : String}
    (hn : .triggerData name ∈ f.shim.sources) : name = unit.listener.variable_ := by
  rw [h.sources_shim] at hn
  rcases List.mem_append.1 hn with hn | hn
  · obtain ⟨p, _, e⟩ := List.mem_map.1 hn
    exact absurd e (p.placeholder?_value.2.2 name)
  · obtain ⟨a, ha, e⟩ := List.mem_map.1 hn
    obtain ⟨_, _, _, given⟩ := h.given_of_mem ha
    exact given.source_value.2.2 name e

theorem identity_inputs (h : Assembled program unit mark handler type f) :
    ((unit.arguments program handler).filterMap (·.binding)).map Binding.identity =
      handler.params.filterMap (unit.input? program) := by
  rw [List.map_filterMap]
  exact (filterMap_eq_of_forall₂ (fun _ _ ⟨_, _, hg⟩ => hg.identity_binding)
    h.forall₂_arguments).symm

/-- The output of a function, if it has one, has its binding and is what the shim writes to. -/
theorem output_agrees (h : Assembled program unit mark handler type f) :
    ∃ out : Option Output,
      (outputBinding? type (unit.outputResult program handler type)).map Binding.identity =
          out.map Output.identity ∧
        f.shim.statements.filterMap Statement.written? =
          (out.map fun o => (o.variable_, o.bindingKind)).toList := by
  rw [h.shim_eq, Shim.written_assemble]
  rcases h.output_cases with ⟨ho, _⟩ | ⟨output, outputMark, b, ho, _, hb⟩
  · exact ⟨none, by rw [ho]; rfl, by rw [ho]; rfl⟩
  · refine ⟨some output, ?_, by rw [ho]; rfl⟩
    rw [ho, outputBinding?, toOption_eq_some.2 hb]
    exact congrArg some (Output.binding_gives _ _ _ b hb)

theorem trigger_binding (h : Assembled program unit mark handler type f) : ∃ payload,
    unit.listener.binding ⟨mark, handler.accessor, (unit.route handler).path, payload⟩ =
      .ok f.trigger :=
  ⟨_, locate_eq_ok.1 h.trigger⟩

end Assembled

/-- What the bindings of a function and its shim say of each other and of the handler, where `out`
is the output of the handler. -/
structure Agrees (program : Program) (unit : ServiceUnit) (handler : Function)
    (out : Option Output) (f : AppFunction) : Prop where
  identities : f.bindings.map Binding.identity = unit.listener.identity ::
    (handler.params.filterMap (unit.input? program) ++ (out.map Output.identity).toList)
  isTrigger : f.trigger.kind.isTrigger = true
  others : ∀ b ∈ f.others, b.kind.isTrigger = false
  names : (f.bindings.map (·.name)).Nodup
  triggerData : ∀ name, .triggerData name ∈ f.shim.sources → name = f.trigger.name
  inputs : f.shim.sources.filter Source.isInput =
    (handler.params.filterMap (unit.input? program)).map Source.ofInput
  written : f.shim.statements.filterMap Statement.written? =
    (out.map fun o => (o.variable_, o.bindingKind)).toList
  placeholders : f.shim.sources.filterMap Source.placeholder? =
    ((unit.relativeSegments handler).filterMap RouteSegment.param?).map fun p => (p.token, p.rest)
  route : unit.listener = .http → f.trigger.field? "route" = some (.text
    (String.intercalate "/"
      (unit.service.basePath ++ (unit.relativeSegments handler).map RouteSegment.text)))

theorem Assembled.agrees (h : Assembled program unit mark handler type f) :
    ∃ out, Agrees program unit handler out f := by
  obtain ⟨out, binding, written⟩ := h.output_agrees
  obtain ⟨payload, trigger⟩ := h.trigger_binding
  obtain ⟨isTrigger, others, names⟩ := f.check_eq_ok h.check
  have identity : f.trigger.identity = unit.listener.identity :=
    Listener.binding_gives _ _ _ trigger
  refine ⟨out, ?_, isTrigger, others, names, fun name hn => ?_, h.inputs_sources, written,
    h.placeholders_sources, fun hl => ?_⟩
  · have ho : f.others = (unit.arguments program handler).filterMap (·.binding) ++
        (outputBinding? type (unit.outputResult program handler type)).toList := by
      rw [h.eq]
      rfl
    rw [AppFunction.bindings, List.map_cons, identity, ho, List.map_append, h.identity_inputs,
      ← Option.toList_map, binding]
  · rw [h.triggerData_sources hn]
    exact (congrArg (·.2.2) identity).symm
  · rw [← unit.path_route handler hl]
    rw [hl] at trigger
    exact Listener.route_gives _ _ trigger

end ServiceUnit

/-- **The descriptor of a function and its shim agree.** -/
theorem App.descriptor_agrees {program : Program} {configuration : Diagnostics} {f : AppFunction}
    (h : f ∈ (analyze program configuration).functions) :
    ∃ unit ∈ (extract program).units, ∃ handler ∈ unit.handlers, ∃ mark out,
      unit.assemble program mark handler = .ok f ∧ ServiceUnit.Agrees program unit handler out f := by
  obtain ⟨unit, hu, mark, _, handler, hh, ha⟩ := exists_assemble_of_mem configuration h
  obtain ⟨type, assembled⟩ := ServiceUnit.assembled_of_assemble ha
  obtain ⟨out, agrees⟩ := assembled.agrees
  exact ⟨unit, hu, handler, hh, mark, out, ha, agrees⟩

/-- A program with a handler of a queue that reads a blob and a value of the trigger, and sends what
it returns to another queue. -/
def orderProgram : Program where
  name := "orders"
  types := []
  errors := []
  documents :=
    [{ name := "orders"
       imports := []
       listeners := []
       services :=
         [{ name := some "orders"
            basePath := []
            listener := .inline "azure_functions:QueueListener"
            annotations :=
              [⟨"azure_functions:QueueTrigger", [("queueName", .literal "in")], default⟩]
            functions :=
              [{ name := "onOrder"
                 qualifier := .remote
                 accessor := none
                 path := []
                 params :=
                   [⟨"order", .required, .builtin .string, [], default⟩,
                     ⟨"prices", .required, .builtin .string,
                       [⟨"azure_functions:BlobInput", [("path", .literal "prices")], default⟩],
                       default⟩,
                     ⟨"key", .required, .builtin .string,
                       [⟨"azure_functions:BindingName", [("name", .literal "id")], default⟩],
                       default⟩]
                 returns :=
                   ⟨.builtin .string,
                     [⟨"azure_functions:QueueOutput", [("queueName", .literal "out")], default⟩],
                     default⟩
                 location := default }]
            location := default }]
       functions := [] }]

theorem App.descriptor_agrees_orders : ∃ f ∈ (analyze orderProgram []).functions,
    f.bindings.map (·.name) = ["inMsg", "prices", "id", "outMsg"] ∧
      ∃ unit ∈ (extract orderProgram).units, ∃ handler ∈ unit.handlers, ∃ mark out,
        unit.assemble orderProgram mark handler = .ok f ∧
          ServiceUnit.Agrees orderProgram unit handler out f := by
  have names : (analyze orderProgram []).functions.map (fun f => f.bindings.map (·.name)) =
      [["inMsg", "prices", "id", "outMsg"]] := by
    decide +kernel
  obtain ⟨f, hf, hn⟩ := List.mem_map.1 (names ▸ List.mem_singleton_self _)
  exact ⟨f, hf, hn, descriptor_agrees hf⟩

end FunctionApp
