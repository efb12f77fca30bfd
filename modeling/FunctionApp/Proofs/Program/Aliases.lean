import FunctionApp.Proofs.Program.AliasChains

/-!
# Records behind aliases

A type stands for a record if a chain of aliases leads from it to the name of one, so that the
record is found by following the chain to its end (`recordType?_eq_some_iff`).
-/

namespace FunctionApp.Program

variable {program : Program} {ty : TypeExpr} {r : RecordType} {name : String} {k : Nat}

/-- A type stands for a record behind a number of aliases. -/
inductive IsRecordAt (program : Program) (r : RecordType) : Nat → TypeExpr → Prop where
  | record {name : String} :
      program.definition? name = some (.record r) → IsRecordAt program r 0 (.named name)
  | behind {name : String} {k : Nat} {ty : TypeExpr} :
      program.alias? name = some ty → IsRecordAt program r k ty →
      IsRecordAt program r (k + 1) (.named name)

/-- A type stands for a record if its chain of aliases ends at the name of the record. -/
theorem isRecordAt_iff_leadsTo : IsRecordAt program r k ty ↔
    ∃ name, LeadsTo program (.named name) k ty ∧ program.definition? name = some (.record r) := by
  constructor
  · intro h
    induction h with
    | @record name hd =>
      refine ⟨name, .stop fun n hn => ?_, hd⟩
      obtain rfl := TypeExpr.named.inj hn
      exact alias?_of_record hd
    | behind ha _ ih =>
      obtain ⟨name, ends, hd⟩ := ih
      exact ⟨name, .behind ha ends, hd⟩
  · rintro ⟨name, ends, hd⟩
    induction ends with
    | stop => exact .record hd
    | behind ha _ ih => exact .behind ha ih

/-- **The record of a type** is the one that a chain of aliases leads to. -/
theorem recordType?_eq_some_iff :
    program.recordType? ty = some r ↔ ∃ k, IsRecordAt program r k ty := by
  simp only [isRecordAt_iff_leadsTo]
  constructor
  · intro h
    unfold recordType? at h
    split at h
    · next name hr =>
      split at h
      · next r' hd =>
        obtain rfl := Option.some.inj h
        rcases resolveAlias_cases program ty with ⟨k, ends⟩ | ⟨n, body, hn, ha⟩
        · exact ⟨k, name, hr ▸ ends, hd⟩
        · obtain rfl := TypeExpr.named.inj (hr.symm.trans hn)
          cases (alias?_of_record hd).symm.trans ha
      · cases h
    · cases h
  · rintro ⟨k, name, ends, hd⟩
    unfold recordType?
    rw [resolveAlias_of_leadsTo ends]
    simp only [hd]

/-! ## What is asked of the type behind the aliases -/

namespace SameEnd

variable {other : TypeExpr}

theorem recordType? (h : SameEnd program ty other) :
    program.recordType? ty = program.recordType? other := by
  unfold Program.recordType?
  rcases h.resolves with same | ⟨n, m, _, _, hn, hm, ha, hb⟩
  · rw [same]
  · simp only [hn, hm, alias?_eq_some_iff.1 ha, alias?_eq_some_iff.1 hb]

theorem isRecord (h : SameEnd program ty other) : program.isRecord ty = program.isRecord other := by
  rw [Program.isRecord, h.recordType?, Program.isRecord]

theorem isRecordArray (h : SameEnd program ty other) :
    program.isRecordArray ty = program.isRecordArray other := by
  unfold Program.isRecordArray
  rcases h.resolves with same | ⟨n, m, -, -, hn, hm, -, -⟩
  · rw [same]
  · simp only [hn, hm]

theorem isBasic (h : SameEnd program ty other) : program.isBasic ty = program.isBasic other := by
  unfold Program.isBasic
  rcases h.resolves with same | ⟨n, m, -, -, hn, hm, -, -⟩
  · rw [same]
  · simp only [hn, hm, TypeExpr.isBasicScalar]

end SameEnd

theorem recordType?_resolveAlias :
    program.recordType? (program.resolveAlias ty) = program.recordType? ty :=
  (sameEnd_resolveAlias program ty).recordType?

end FunctionApp.Program
