import FunctionApp.Handler.Assembly
import FunctionApp.Proofs.Text.Numerals
import Mathlib.Data.List.Nodup

/-!
# The variables of a shim

A shim binds its variables first, then calls the handler with all of them, and writes the result at
the end if there is one. The variables are numbered, so that no two are the same
(`nodup_introduced_assemble`).
-/

namespace FunctionApp

/-- The variables that a statement introduces. -/
def Statement.introduced : Statement → List String
  | .bind var _ => [var]
  | .invoke _ _ result _ => result.toList
  | .marshal .. => []

/-! ## Fresh names -/

theorem freshName_injective (word : String) : Function.Injective (freshName word) := by
  intro m n h
  exact Text.repr_injective ((String.append_right_inj word).1 h)

theorem freshName_arg_ne_ret (m n : Nat) : freshName "arg" m ≠ freshName "ret" n := by
  intro h
  have heads := congrArg (fun s => s.toList.head?) h
  simp [freshName] at heads

namespace Shim

/-- The variables that take values, each with its value. -/
def binds (values : List Expression) : List (String × Expression) :=
  ((List.range values.length).map (freshName "arg")).zip values

/-- The variable that takes the result of a handler that returns a type. -/
def result? (values : List Expression) (type : TypeExpr) : Option String :=
  if type.valueType.isSome then some (freshName "ret" values.length) else none

variable (function handler : String) (values : List Expression) (type : TypeExpr)
  (marshal : Option String → Option Statement)

theorem fst_binds : (binds values).map (·.1) = (List.range values.length).map (freshName "arg") :=
  List.map_fst_zip (by simp)

theorem snd_binds : (binds values).map (·.2) = values :=
  List.map_snd_zip (by simp)

theorem statements_assemble :
    (assemble function handler values type marshal).statements =
      (binds values).map (fun b => .bind b.1 b.2) ++
        .invoke handler ((binds values).map (·.1)) (result? values type) type.containsError ::
          (marshal (result? values type)).toList := by
  rw [fst_binds]
  rfl

theorem nodup_vars : ((binds values).map (·.1) ++ (result? values type).toList).Nodup := by
  rw [fst_binds]
  refine List.nodup_append.2 ⟨List.nodup_range.map (freshName_injective "arg"), ?_, ?_⟩
  · cases result? values type <;> simp
  · intro var hv result hr
    obtain ⟨n, _, rfl⟩ := List.mem_map.1 hv
    unfold result? at hr
    split at hr
    · rw [List.mem_singleton.1 hr]
      exact freshName_arg_ne_ret _ _
    · cases hr

/-- **No variable is introduced twice.** -/
theorem nodup_introduced_assemble
    (hm : ∀ s ∈ marshal (result? values type), s.introduced = []) :
    ((assemble function handler values type marshal).statements.flatMap
      Statement.introduced).Nodup := by
  have vars : ((binds values).map fun b => Statement.bind b.1 b.2).flatMap Statement.introduced =
      (binds values).map (·.1) := by
    rw [List.flatMap_map, List.map_eq_flatMap]
    rfl
  have written : (marshal (result? values type)).toList.flatMap Statement.introduced = [] := by
    refine List.flatMap_eq_nil_iff.2 fun s hs => hm s (Option.mem_toList.1 hs)
  rw [statements_assemble, List.flatMap_append, List.flatMap_cons, vars, written, List.append_nil]
  exact nodup_vars values type

end Shim

end FunctionApp
