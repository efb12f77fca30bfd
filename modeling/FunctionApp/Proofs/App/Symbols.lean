import FunctionApp.Proofs.App.Documents
import FunctionApp.Proofs.Handler.Scope
import FunctionApp.Proofs.Program.Reading

/-!
# The handlers that shims call

The shim of a function calls one handler, by a path made of the identifiers of its document and of its
name (`callees_of_madeOf`). Where the names of handlers are left out, two functions of a document call
different paths if and only if the accessors and the literal segments of their handlers differ as
identifiers (`callees_apart_iff`): neither a parameter of a path nor the path of a service tells two
handlers apart.
-/

namespace FunctionApp

open List (Forall₂)

/-- The path of the handler that a statement calls, if it calls one. -/
def Statement.callee? (module_ : String) : Statement → Option String
  | .invoke handler .. => some ("crate::" ++ module_ ++ "::" ++ codeIdent handler)
  | _ => none

/-- The paths of the handlers that a shim calls. -/
def Shim.callees (module_ : String) (shim : Shim) : List String :=
  shim.statements.filterMap (Statement.callee? module_)

/-- A statement that calls a handler is printed as a call of its path. -/
theorem Statement.exists_print_eq {module_ path : String} {s : Statement}
    (h : s.callee? module_ = some path) :
    ∃ front back, s.print module_ = front ++ path ++ "(" ++ back := by
  cases s with
  | invoke handler args result fallible =>
    cases h
    let back := String.intercalate ", " args ++ ")" ++
      if fallible then ".map_err(ShimError::handler)?" else ""
    unfold Statement.print
    cases result with
    | none => exact ⟨"", back ++ ";", by simp [back, String.append_assoc]⟩
    | some var => exact ⟨"let " ++ var ++ " = ", back ++ ";", by simp [back, String.append_assoc]⟩
  | bind var value => cases h
  | marshal binding kind var encoding => cases h

example : (Statement.invoke "get" ["name"] none false).callee? "orders" =
    some "crate::orders::get" := by
  decide +kernel

/-- The function that is made of a handler of a unit. -/
def MadeOf (program : Program) (f : AppFunction) (handler : Function) : Prop :=
  ∃ unit ∈ (extract program).units, handler ∈ unit.handlers ∧
    ∃ mark, unit.assemble program mark handler = .ok f

/-- The handlers of a program have no names where they are written. -/
def HandlersUnnamed (written : Written.Program) (program : Program) : Prop :=
  ∀ d ∈ written.documents, ∀ s ∈ d.services, ∀ w ∈ s.functions,
    (∃ unit ∈ (extract program).units, ∃ handler ∈ unit.handlers,
      Program.readFunction d.name .remote w = .ok handler) → w.name = none

variable {program : Program} {written : Written.Program} {configuration : Diagnostics}
  {d : DocumentFunctions} {f : AppFunction} {handler : Function} {unit : ServiceUnit}

theorem callees_of_madeOf (h : MadeOf program f handler) (module_ : String) :
    f.shim.callees module_ = ["crate::" ++ module_ ++ "::" ++ codeIdent handler.name] := by
  obtain ⟨unit, -, -, mark, ha⟩ := h
  obtain ⟨type, assembled⟩ := ServiceUnit.assembled_of_assemble ha
  obtain ⟨binds, result, after, whole⟩ := assembled.scoped
  have bound : (binds.map fun b => Statement.bind b.1 b.2).filterMap (Statement.callee? module_) =
      [] := by
    rw [List.filterMap_map]
    exact List.filterMap_eq_nil_iff.2 fun _ _ => rfl
  have marshalled : after.toList.filterMap (Statement.callee? module_) = [] := by
    refine List.filterMap_eq_nil_iff.2 fun s hs => ?_
    obtain ⟨binding, kind, var, encoding, rfl⟩ := whole.marshals s (Option.mem_toList.1 hs)
    rfl
  rw [Shim.callees, whole.statements, List.filterMap_append, List.filterMap_cons, bound, marshalled]
  rfl

theorem mem_services_of_mem_units (h : unit ∈ (extract program).units) :
    unit.document ∈ program.documents ∧ unit.service ∈ unit.document.services := by
  rw [units_extract] at h
  obtain ⟨document, hd, hu⟩ := List.mem_flatMap.1 h
  obtain ⟨rfl, hs⟩ := Document.of_mem_units hu
  exact ⟨hd, hs⟩

/-- A handler without a name is called by its accessor and the literal segments of its path. -/
theorem codeIdent_of_madeOf (h : Program.ofWritten written = .ok program)
    (hn : HandlersUnnamed written program) (hm : MadeOf program f handler) :
    codeIdent handler.name = codeIdent handler.words := by
  obtain ⟨unit, hu, hh, -⟩ := hm
  obtain ⟨hd, hs⟩ := mem_services_of_mem_units hu
  obtain ⟨d, hd, s, hs, w, hw, -, read⟩ :=
    Program.exists_written_function h hd hs (List.mem_filter.1 hh).1
  exact codeIdent_of_readFunction read (hn d hd s hs w hw ⟨unit, hu, handler, hh, read⟩)

namespace App

theorem exists_madeOf (h : f ∈ (analyze program configuration).functions) :
    ∃ handler, MadeOf program f handler := by
  obtain ⟨unit, hu, mark, -, handler, hh, ha⟩ := exists_assemble_of_mem configuration h
  exact ⟨handler, unit, hu, hh, mark, ha⟩

/-- The functions of a document are made of handlers. -/
theorem exists_forall₂_madeOf {fs : List AppFunction}
    (h : ∀ f ∈ fs, f ∈ (analyze program configuration).functions) :
    ∃ handlers, Forall₂ (MadeOf program) fs handlers := by
  induction fs with
  | nil => exact ⟨[], .nil⟩
  | cons f fs ih =>
    obtain ⟨hf, h⟩ := List.forall_mem_cons.1 h
    obtain ⟨handler, made⟩ := exists_madeOf hf
    obtain ⟨handlers, rest⟩ := ih h
    exact ⟨handler :: handlers, .cons made rest⟩

theorem map_callees (h : Program.ofWritten written = .ok program)
    (hn : HandlersUnnamed written program) {fs : List AppFunction} {handlers : List Function}
    (made : Forall₂ (MadeOf program) fs handlers) (module_ : String) :
    fs.map (·.shim.callees module_) =
      handlers.map fun handler => ["crate::" ++ module_ ++ "::" ++ codeIdent handler.words] := by
  induction made with
  | nil => rfl
  | cons hm _ ih =>
    rw [List.map_cons, List.map_cons, callees_of_madeOf hm, codeIdent_of_madeOf h hn hm, ih]

/-- **When handlers are called through different symbols.** Every function of a document is made of a
handler, and its shim calls one path. Where the handlers are written without names, that is the path
of the accessor and the literal segments of the handler as an identifier, and no two functions of a
document call one path if and only if these identifiers differ. -/
theorem callees_apart_iff {source : String} (h : Program.read source = .ok program)
    (hn : ∀ written, Written.Program.read source = .ok written → HandlersUnnamed written program)
    (hd : d ∈ (analyze program configuration).documents) :
    ∃ handlers, Forall₂ (MadeOf program) d.functions handlers ∧
      d.functions.map (·.shim.callees (codeIdent d.document)) =
        handlers.map (fun handler =>
          ["crate::" ++ codeIdent d.document ++ "::" ++ codeIdent handler.words]) ∧
      ((d.functions.flatMap (·.shim.callees (codeIdent d.document))).Nodup ↔
        (handlers.map fun handler => codeIdent handler.words).Nodup) := by
  unfold Program.read at h
  split at h
  · next written hw =>
    have functions (f : AppFunction) (hf : f ∈ d.functions) :
        f ∈ (analyze program configuration).functions :=
      mem_functions_of_mem hd hf
    obtain ⟨handlers, made⟩ := exists_forall₂_madeOf functions
    have callees := map_callees h (hn written hw) made (codeIdent d.document)
    have paths : (handlers.map fun handler =>
        "crate::" ++ codeIdent d.document ++ "::" ++ codeIdent handler.words) =
        (handlers.map fun handler => codeIdent handler.words).map
          ("crate::" ++ codeIdent d.document ++ "::" ++ ·) := by
      rw [List.map_map]
      rfl
    refine ⟨handlers, made, callees, ?_⟩
    rw [List.flatMap_def, callees, ← List.flatMap_def, ← List.map_eq_flatMap, paths]
    exact List.nodup_map_iff fun _ _ => (String.append_right_inj _).1
  · cases h

/-- A program file with one document, and in it an HTTP service with resources of the given accessors
and paths, all without names. -/
def resourcesFile (resources : List String) : String :=
  "\x7bname: app, documents: [\x7bname: main, services: [\x7b" ++
    "listener_type: \"azure_functions:HttpListener\", functions: [" ++
    String.intercalate ", " (resources.map fun r => "\x7b" ++ r ++ "\x7d") ++ "]\x7d]\x7d]\x7d"

/-- What holds of the two steps in which a program file is read. -/
theorem exists_read (source : String) (P : Written.Program → Program → Bool)
    (h : (match Written.Program.read source with
      | .ok written => match Program.ofWritten written with
        | .ok program => P written program
        | .error _ => false
      | .error _ => false) = true) :
    ∃ written program, Written.Program.read source = .ok written ∧
      Program.read source = .ok program ∧ P written program = true := by
  split at h
  · next written hw =>
    split at h
    · next program hp => exact ⟨written, program, hw, by rw [Program.read, hw]; exact hp, h⟩
    · cases h
  · cases h

/-- Whether no function of a service has a name where it is written. -/
def unnamed (written : Written.Program) : Bool :=
  written.documents.all fun d => d.services.all fun s => s.functions.all fun w => w.name.isNone

theorem handlersUnnamed_of_unnamed {source : String} (hr : Written.Program.read source = .ok written)
    (h : unnamed written = true) (other : Written.Program)
    (ho : Written.Program.read source = .ok other) : HandlersUnnamed other program := by
  obtain rfl := Except.ok.inj (hr.symm.trans ho)
  intro d hd s hs w hw _
  exact Option.isNone_iff_eq_none.1
    (List.all_eq_true.1 (List.all_eq_true.1 (List.all_eq_true.1 h d hd) s hs) w hw)

/-- The functions of an app with the paths that their shims call, for each document. -/
def calls (app : App) : List (List (String × List String)) :=
  app.documents.map fun d => d.functions.map fun f =>
    (f.name, f.shim.callees (codeIdent d.document))

theorem callees_apart_orders_and_items :
    ∃ program, Program.read (resourcesFile ["accessor: get, path: [orders]",
        "accessor: get, path: [items]"]) = .ok program ∧
      ∃ d ∈ (analyze program []).documents, d.functions.map (·.name) = ["get-orders", "get-items"] ∧
        ∃ handlers, Forall₂ (MadeOf program) d.functions handlers ∧
          (handlers.map fun handler => codeIdent handler.words).Nodup := by
  obtain ⟨written, program, hw, hp, holds⟩ := exists_read
    (resourcesFile ["accessor: get, path: [orders]", "accessor: get, path: [items]"])
    (fun written program => unnamed written && decide (calls (analyze program []) =
      [[("get-orders", ["crate::main::get_orders"]), ("get-items", ["crate::main::get_items"])]]))
    (by decide +kernel)
  simp only [Bool.and_eq_true, decide_eq_true_eq] at holds
  obtain ⟨names, called⟩ := holds
  obtain ⟨d, rest, documents, called, -⟩ := List.map_eq_cons_iff.1 called
  have hd : d ∈ (analyze program []).documents := documents ▸ .head rest
  have functions : d.functions.map (·.name) = ["get-orders", "get-items"] := by
    simpa [Function.comp_def] using congrArg (List.map Prod.fst) called
  have callees : d.functions.flatMap (·.shim.callees (codeIdent d.document)) =
      ["crate::main::get_orders", "crate::main::get_items"] := by
    simpa [Function.comp_def, List.flatMap_def] using congrArg (List.flatMap Prod.snd) called
  obtain ⟨handlers, made, -, apart⟩ :=
    callees_apart_iff hp (handlersUnnamed_of_unnamed hw names) hd
  rw [callees] at apart
  exact ⟨program, hp, d, hd, functions, handlers, made, apart.1 (by decide)⟩

/-- Two resources without names of which nothing is reported, and that are called by one path: a
parameter tells their functions apart, but not their symbols. -/
theorem callees_not_apart :
    ∃ written program,
      Written.Program.read (resourcesFile ["accessor: get, path: [orders]",
        "accessor: get, path: [orders, \"\x7bid\x7d\"]"]) = .ok written ∧
      Program.read (resourcesFile ["accessor: get, path: [orders]",
        "accessor: get, path: [orders, \"\x7bid\x7d\"]"]) = .ok program ∧
      HandlersUnnamed written program ∧
      (analyze program []).diagnostics.isEmpty = true ∧
      calls (analyze program []) =
        [[("get-orders", ["crate::main::get_orders"]),
          ("get-orders-id", ["crate::main::get_orders"])]] := by
  obtain ⟨written, program, hw, hp, holds⟩ := exists_read (resourcesFile
      ["accessor: get, path: [orders]", "accessor: get, path: [orders, \"\x7bid\x7d\"]"])
    (fun written program => unnamed written && (analyze program []).diagnostics.isEmpty &&
      decide (calls (analyze program []) =
        [[("get-orders", ["crate::main::get_orders"]),
          ("get-orders-id", ["crate::main::get_orders"])]]))
    (by decide +kernel)
  simp only [Bool.and_eq_true, decide_eq_true_eq] at holds
  obtain ⟨⟨names, clean⟩, called⟩ := holds
  exact ⟨written, program, hw, hp, handlersUnnamed_of_unnamed hw names written hw, clean, called⟩

end App

end FunctionApp
