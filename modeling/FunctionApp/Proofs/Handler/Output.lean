import FunctionApp.Proofs.Handler.Assembly

/-!
# The output of an assembled function

Only a handler that returns no value may be without an output: then nothing is written. Otherwise
the function has the binding of its output, and its shim the statement that writes to it.
-/

namespace FunctionApp

namespace ServiceUnit

variable {program : Program} {unit : ServiceUnit} {mark : Option Annotation} {handler : Function}
  {type : TypeExpr} {f : AppFunction}

theorem valueType_of_output?_eq_none {function : String} {returns : Returns}
    (h : unit.output? program function returns type = .ok none) : type.valueType = none := by
  obtain ⟨found, _, h⟩ := bind_eq_ok.1 h
  cases found with
  | some found =>
    dsimp only at h
    split at h <;> cases h
  | none =>
    dsimp only at h
    split at h
    · cases h
    · split at h
      · next hv => simpa using hv
      · cases h

theorem marshal?_eq_some (type : TypeExpr)
    (output : Except Diagnostic (Option (Output × Option Annotation))) (result : Option String) :
    ∀ s ∈ marshal? type output result,
      ∃ binding kind var encoding, s = .marshal binding kind var encoding := by
  intro s hs
  unfold marshal? at hs
  split at hs
  · cases hs
    exact ⟨_, _, _, _, rfl⟩
  · cases hs

/-- What is known of the output of an assembled function: there is none and no value either, or the
output takes the type and has a binding. -/
theorem Assembled.output_cases (h : Assembled program unit mark handler type f) :
    (unit.outputResult program handler type = .ok none ∧ type.valueType = none) ∨
    ∃ output outputMark b,
      unit.outputResult program handler type = .ok (some (output, outputMark)) ∧
        output.check program type = .ok () ∧ output.binding outputMark type = .ok b := by
  have he := h.errors
  simp only [allErrors, List.append_eq_nil_iff] at he
  have hout := he.1.2
  cases ho : unit.outputResult program handler type with
  | error d => rw [ho] at hout; cases hout
  | ok result =>
    cases result with
    | none => exact .inl ⟨rfl, valueType_of_output?_eq_none ho⟩
    | some found =>
      obtain ⟨output, outputMark⟩ := found
      rw [ho] at hout
      refine .inr ⟨output, outputMark, ?_⟩
      dsimp only [outputErrors] at hout
      cases hc : output.check program type with
      | error p => rw [hc] at hout; cases hout
      | ok _ =>
        cases hb : output.binding outputMark type with
        | error p => rw [hc, hb] at hout; cases hout
        | ok b => exact ⟨b, rfl, rfl, rfl⟩

end ServiceUnit

end FunctionApp
