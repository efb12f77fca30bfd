import FunctionApp.Proofs.Shim.Identifiers
import FunctionApp.Shim.Printer
import Mathlib.Data.List.Nodup

/-!
# Dispatching to shims

A module of shims has one function for each of them and `dispatch`, which calls the first of its lines
that has the name of the function. Which shims an identifier means is read off the module
(`definedNames_moduleBody`); a shim is the one that `dispatch` calls if and only if no other shim of
the module has its identifier (`dispatched_eq_singleton_iff`).
-/

namespace FunctionApp

/-- The name of the function that a line of a module begins, if it begins one. -/
def definedName? (line : String) : Option String :=
  if "pub fn ".toList.isPrefixOf line.toList then
    some (String.ofList ((line.toList.drop 7).takeWhile (· ≠ '(')))
  else none

/-- The functions that a module defines, by the lines of its text. -/
def definedNames (lines : List String) : List String := lines.filterMap definedName?

/-- The shims that `dispatch` may call for a function: those of the identifier in its first line for
the name of the function. Where they are several, the call has no meaning. -/
def dispatched (shims : List Shim) (function : String) : List Shim :=
  match shims.find? (·.function = function) with
  | some shim => shims.filter (·.ident = shim.ident)
  | none => []

variable {shims : List Shim} {shim : Shim}

theorem not_mem_ident (shim : Shim) : '(' ∉ shim.ident.toList := by
  intro h
  rw [Shim.ident, String.toList_append, List.mem_append] at h
  rcases h with h | h
  · exact absurd h (by decide)
  · cases isNameChar_codeIdent h

theorem definedName?_begin {name rest : String} (hn : '(' ∉ name.toList)
    (hr : rest.toList.head? = some '(') : definedName? ("pub fn " ++ name ++ rest) = some name := by
  have line : ("pub fn " ++ name ++ rest).toList =
      "pub fn ".toList ++ (name.toList ++ rest.toList) := by
    simp [String.toList_append]
  have stops : (name.toList ++ rest.toList).takeWhile (· ≠ '(') = name.toList := by
    rw [List.takeWhile_append_of_pos fun c hc => by simpa using ne_of_mem_of_not_mem hc hn]
    obtain ⟨more, hm⟩ := List.head?_eq_some_iff.1 hr
    simp [hm]
  rw [definedName?, line, if_pos (List.isPrefixOf_iff_prefix.2 (List.prefix_append _ _))]
  change some (String.ofList ((name.toList ++ rest.toList).takeWhile (· ≠ '('))) = some name
  rw [stops, String.ofList_toList]

/-- Of the lines of a shim only the second begins a function. -/
theorem definedNames_lines (module_ : String) (shim : Shim) :
    definedNames (shim.lines module_) = [shim.ident] := by
  have statement (s : Statement) : definedName? ("    " ++ s.print module_) = none := by
    rw [definedName?, if_neg]
    simp [String.toList_append]
  have begin_ : definedName? ("pub fn " ++ shim.ident ++
      "(envelope: &Envelope) -> Result<Outputs, ShimError> \x7b") = some shim.ident :=
    definedName?_begin (not_mem_ident shim) rfl
  have comment : definedName? ("/// Invocation shim for function \x60" ++ shim.function ++ "\x60") =
      none := by
    rw [definedName?, if_neg]
    simp [String.toList_append]
  have statements : (shim.statements.map fun s => "    " ++ s.print module_).filterMap definedName? =
      [] := by
    rw [List.filterMap_map]
    exact List.filterMap_eq_nil_iff.2 fun s _ => statement s
  rw [definedNames, Shim.lines, List.filterMap_append, List.filterMap_append, statements]
  simp only [List.filterMap_cons, comment, begin_]
  rfl

/-- **The functions of a module** are those of its shims and `dispatch`. -/
theorem definedNames_moduleBody (module_ : String) (shims : List Shim) :
    definedNames (moduleBody module_ shims) = shims.map (·.ident) ++ ["dispatch"] := by
  have each : (shims.flatMap (Shim.lines module_)).filterMap definedName? =
      shims.map (·.ident) := by
    rw [List.filterMap_flatMap, List.map_eq_flatMap]
    exact List.flatMap_congr fun shim _ => definedNames_lines module_ shim
  have arms : (shims.map Shim.dispatchLine).filterMap definedName? = [] := by
    rw [List.filterMap_map]
    refine List.filterMap_eq_nil_iff.2 fun shim _ => ?_
    rw [Function.comp_apply, definedName?, if_neg]
    simp [Shim.dispatchLine, String.toList_append]
  rw [definedNames, moduleBody]
  simp only [List.filterMap_append, each, arms, List.append_nil]
  exact List.append_nil _

/-- No function of a module is defined twice if and only if no identifier belongs to two shims. -/
theorem nodup_definedNames_iff (module_ : String) :
    (definedNames (moduleBody module_ shims)).Nodup ↔ (shims.map (·.ident)).Nodup := by
  rw [definedNames_moduleBody, List.nodup_append]
  refine ⟨fun h => h.1, fun h => ⟨h, List.nodup_singleton _, fun name hn other ho => ?_⟩⟩
  obtain ⟨shim, _, rfl⟩ := List.mem_map.1 hn
  obtain rfl := List.mem_singleton.1 ho
  intro e
  have first := congrArg (·.toList.head?) e
  simp [Shim.ident, String.toList_append] at first

/-- **A shim is what `dispatch` calls** for its function if and only if no other shim has its
identifier. -/
theorem dispatched_eq_singleton_iff (hn : (shims.map (·.function)).Nodup) (hs : shim ∈ shims) :
    dispatched shims shim.function = [shim] ↔
      ∀ other ∈ shims, other.ident = shim.ident → other = shim := by
  have found : shims.find? (·.function = shim.function) = some shim := by
    cases hf : shims.find? (·.function = shim.function) with
    | none =>
      have := List.find?_eq_none.1 hf shim hs
      simp at this
    | some other =>
      have same : other.function = shim.function := by simpa using List.find?_some hf
      rw [List.inj_on_of_nodup_map hn (List.mem_of_find?_eq_some hf) hs same]
  rw [dispatched, found]
  dsimp only
  constructor
  · intro h other ho e
    have member : other ∈ shims.filter (·.ident = shim.ident) :=
      List.mem_filter.2 ⟨ho, by simpa using e⟩
    rw [h] at member
    exact List.mem_singleton.1 member
  · intro h
    have nodup : (shims.filter (·.ident = shim.ident)).Nodup := hn.of_map.filter _
    refine List.perm_singleton.1
      ((List.perm_ext_iff_of_nodup nodup (List.nodup_singleton _)).2 fun other => ?_)
    rw [List.mem_filter, List.mem_singleton, decide_eq_true_eq]
    exact ⟨fun ⟨ho, e⟩ => h other ho e, by rintro rfl; exact ⟨hs, rfl⟩⟩

end FunctionApp
