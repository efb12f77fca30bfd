import FunctionApp.Proofs.App.Analysis
import FunctionApp.Proofs.Handler.Arguments
import FunctionApp.Proofs.Handler.Output
import FunctionApp.Proofs.Handler.Route
import FunctionApp.Proofs.Shim.Variables
import FunctionApp.Proofs.TypeExpr.Members

/-!
# Every value has a variable

The shim of a function gives a variable to every placeholder of the route and to every parameter of
the handler, in their order, calls the handler with these variables, and writes the value that the
handler returns (`shim_scoped`).
-/

namespace FunctionApp

open List (Forall₂)

theorem Role.type_extraction (role : Role) (program : Program) (site : ParamSite) :
    (role.extraction program site).type = site.type := by
  unfold extraction
  cases role with
  | header => dsimp only; split <;> rfl
  | payload => dsimp only; unfold Listener.extraction; split <;> rfl
  | _ => rfl

namespace ServiceUnit

variable {program : Program} {unit : ServiceUnit} {mark : Option Annotation} {handler : Function}
  {type : TypeExpr} {f : AppFunction}

/-- A value that is bound for a parameter: it is taken in the role of the parameter, at the
effective form of its type. -/
def Carries (program : Program) (unit : ServiceUnit) (param : Param) (value : Expression) : Prop :=
  ∃ mark, unit.mark? program param = .ok mark ∧ param.type.effective = .ok value.type ∧
    value = (roleOf program unit.listener ⟨param.name, value.type, mark.map (·.1)⟩).extraction
      program ⟨param.name, value.type, mark.map (·.2), unit.listener⟩

/-- What a shim is for a handler that returns a type. It binds variables, calls the handler with
them and writes the result; no variable is introduced twice; and every placeholder of the route,
every parameter and a value that is returned has its variable. -/
structure Scoped (program : Program) (unit : ServiceUnit) (handler : Function) (type : TypeExpr)
    (shim : Shim) (binds : List (String × Expression)) (result : Option String)
    (written : Option Statement) : Prop where
  statements : shim.statements = binds.map (fun b => .bind b.1 b.2) ++
    .invoke handler.name (binds.map (·.1)) result type.containsError :: written.toList
  marshals : ∀ s ∈ written, ∃ binding kind var encoding, s = .marshal binding kind var encoding
  distinct : (shim.statements.flatMap Statement.introduced).Nodup
  placeholders : (unit.route handler).params.map (fun p => (p.type, p.rest)) =
    if unit.listener = .http then handler.path.filterMap PathSegment.placeholder? else []
  effective : ∀ p ∈ (unit.route handler).params, p.type.effective = .ok p.type
  values : ∃ given, binds.map (·.2) = (unit.route handler).params.map RouteParam.value ++ given ∧
    Forall₂ (Carries program unit) handler.params given
  count : binds.length = (unit.route handler).params.length + handler.params.length
  returns : result.isSome = true ↔ ∃ m ∈ type.unionMembers, m.isNil = false ∧ m.isError = false
  result_written : ∀ var, result = some var →
    ∃ binding kind encoding, written = some (.marshal binding kind (some var) encoding)

/-- A value that a handler returns is written. -/
theorem Assembled.marshal?_result (h : Assembled program unit mark handler type f) {var : String}
    (hv : type.valueType.isSome = true) :
    ∃ binding kind encoding, marshal? type (unit.outputResult program handler type) (some var) =
      some (.marshal binding kind (some var) encoding) := by
  rcases h.output_cases with ⟨_, none⟩ | ⟨output, outputMark, _, ho, _, _⟩
  · rw [none] at hv
    cases hv
  · rw [ho]
    refine ⟨output.variable_, output.bindingKind,
      (type.valueType.map ContentType.ofType).getD .json, ?_⟩
    simp only [marshal?, Output.marshal, hv, if_true]

theorem Assembled.forall₂_carries (h : Assembled program unit mark handler type f) :
    Forall₂ (Carries program unit) handler.params
      ((unit.arguments program handler).map (·.value)) := by
  rw [List.forall₂_map_right_iff]
  refine h.forall₂_arguments.imp ?_
  rintro param a ⟨ty, mark, given⟩
  have ht : a.value.type = ty := by rw [given.value, Role.type_extraction]
  exact ⟨mark, given.marked, ht ▸ given.effective, ht ▸ given.value⟩

theorem Assembled.scoped (h : Assembled program unit mark handler type f) :
    ∃ binds result written, Scoped program unit handler type f.shim binds result written := by
  have hs := h.shim_eq
  generalize hvs : (unit.route handler).params.map RouteParam.value ++
    (unit.arguments program handler).map (·.value) = vs at hs
  have count : (Shim.binds vs).length =
      (unit.route handler).params.length + handler.params.length := by
    have lengths := congrArg List.length (Shim.snd_binds vs)
    rw [List.length_map] at lengths
    rw [lengths, ← hvs, List.length_append, List.length_map, List.length_map,
      h.forall₂_arguments.length_eq]
  have result_isSome : (Shim.result? vs type).isSome = type.valueType.isSome := by
    unfold Shim.result?
    cases type.valueType <;> rfl
  refine ⟨Shim.binds vs, Shim.result? vs type,
    marshal? type (unit.outputResult program handler type) (Shim.result? vs type), ?_⟩
  rw [hs]
  exact
    { statements := Shim.statements_assemble ..
      marshals := marshal?_eq_some _ _ _
      distinct := Shim.nodup_introduced_assemble _ _ _ _ _ fun s hm => by
        obtain ⟨_, _, _, _, rfl⟩ := marshal?_eq_some _ _ _ s hm
        rfl
      placeholders := unit.declared_params_route handler
      effective := h.values_placeholders.2
      values := ⟨_, (Shim.snd_binds vs).trans hvs.symm, h.forall₂_carries⟩
      count := count
      returns := by rw [result_isSome, TypeExpr.isSome_valueType_iff]
      result_written := fun var hvar => by
        rw [hvar]
        exact h.marshal?_result (by rw [← result_isSome, hvar, Option.isSome_some]) }

end ServiceUnit

/-- **Every shim is well scoped and loses no value.** -/
theorem App.shim_scoped {program : Program} {configuration : Diagnostics} {f : AppFunction}
    (h : f ∈ (analyze program configuration).functions) :
    ∃ unit ∈ (extract program).units, ∃ handler ∈ unit.handlers, ∃ mark type,
      unit.assemble program mark handler = .ok f ∧ handler.returns.type.effective = .ok type ∧
        ∃ binds result written,
          ServiceUnit.Scoped program unit handler type f.shim binds result written := by
  obtain ⟨unit, hu, mark, _, handler, hh, ha⟩ := exists_assemble_of_mem configuration h
  obtain ⟨type, assembled⟩ := ServiceUnit.assembled_of_assemble ha
  exact ⟨unit, hu, handler, hh, mark, type, ha, assembled.effective, assembled.scoped⟩

/-- A program with a resource under `/shop` that has a placeholder, a rest placeholder and a query
value, and sends what it returns to a queue. -/
def shopProgram : Program where
  name := "shop"
  types := []
  errors := []
  documents :=
    [{ name := "shop"
       imports := []
       listeners := []
       services :=
         [{ name := none
            basePath := ["shop"]
            listener := .inline "azure_functions:HttpListener"
            annotations := []
            functions :=
              [{ name := "items"
                 qualifier := .resource
                 accessor := some "post"
                 path := [.param (some "id") (.builtin .int), .rest "keys" (.builtin .string)]
                 params :=
                   [⟨"count", .required, .builtin .int, [⟨"http:Query", [], default⟩], default⟩]
                 returns :=
                   ⟨.union [.builtin .string, .builtin .error],
                     [⟨"azure_functions:QueueOutput", [("queueName", .literal "orders")], default⟩],
                     default⟩
                 location := default }]
            location := default }]
       functions := [] }]

theorem App.shim_scoped_shop : ∃ f ∈ (analyze shopProgram []).functions,
    f.name = "post-shop-id-keys" ∧
      ∃ unit ∈ (extract shopProgram).units, ∃ handler ∈ unit.handlers, ∃ mark type,
        unit.assemble shopProgram mark handler = .ok f ∧
          handler.returns.type.effective = .ok type ∧
            ∃ binds result written,
              ServiceUnit.Scoped shopProgram unit handler type f.shim binds result written := by
  have names : (analyze shopProgram []).functions.map (·.name) = ["post-shop-id-keys"] := by
    decide +kernel
  obtain ⟨f, hf, hn⟩ := List.mem_map.1 (names ▸ List.mem_singleton_self "post-shop-id-keys")
  exact ⟨f, hf, hn, shim_scoped hf⟩

end FunctionApp
