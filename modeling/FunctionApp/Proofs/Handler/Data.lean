import FunctionApp.Handler.Output
import FunctionApp.Proofs.Program.DataParts
import FunctionApp.Proofs.Results

/-!
# What crosses a binding is plain data, but for documents

Every trigger, parameter and output takes plain data only, with one exception
(`opaque_accepted_iff`): where documents of a database are read or written, a record is taken for a
document whatever its fields hold. The other bindings that take records ask for plain data as well.
-/

namespace FunctionApp

open TypeExpr

namespace Program

variable {program : Program} {ty resolved element : TypeExpr} {r : RecordType}

/-! ## Records and arrays -/

/-- A record type with a field, or a rest, whose values are no plain data. -/
def HasOpaqueField (program : Program) (ty : TypeExpr) : Prop :=
  ∃ r, program.recordType? ty = some r ∧
    ∃ part ∈ (TypeDefinition.record r).parts, program.isAnydata part = false

/-- An array type whose elements are records with such a field. -/
def HasOpaqueElement (program : Program) (ty : TypeExpr) : Prop :=
  ∃ element, program.resolveAlias ty = .array element ∧ program.HasOpaqueField element

/-- A type that is read or written as a document, or as several, and is no plain data. -/
def IsOpaqueDocument (program : Program) (ty : TypeExpr) : Prop :=
  program.HasOpaqueField ty ∨ program.HasOpaqueElement ty

theorem isAnydata_eq_of_resolveAlias (h : program.resolveAlias ty = resolved) :
    program.isAnydata ty = program.isAnydata resolved := by
  rw [← h, isAnydata_resolveAlias]

theorem isAnydata_of_resolveAlias_builtin {b : Builtin} (h : program.resolveAlias ty = .builtin b)
    (ha : b ≠ .any) (he : b ≠ .error) : program.isAnydata ty = true := by
  rw [isAnydata_eq_of_resolveAlias h]
  exact isAnydata_builtin ha he

theorem isAnydata_of_isBasicScalar (h : ty.isBasicScalar = true) : program.isAnydata ty = true := by
  cases ty with
  | builtin b =>
    refine isAnydata_builtin ?_ ?_
    · rintro rfl
      cases h
    · rintro rfl
      cases h
  | _ => cases h

theorem isAnydata_of_isByteArray (h : ty.isByteArray = true) : program.isAnydata ty = true := by
  unfold isByteArray at h
  split at h
  · rw [isAnydata_array]
    exact isAnydata_builtin (by decide) (by decide)
  · cases h

/-- The values of a record are plain data if and only if those of its parts are. -/
theorem isAnydata_iff_of_recordType? (h : program.recordType? ty = some r) :
    program.isAnydata ty = true ↔
      ∀ part ∈ (TypeDefinition.record r).parts, program.isAnydata part = true := by
  unfold recordType? at h
  split at h
  · next name hr =>
    split at h
    · next r' hd =>
      obtain rfl := Option.some.inj h
      rw [isAnydata_eq_of_resolveAlias hr, isAnydata_named, hd]
      simp
    · cases h
  · cases h

theorem isRecord_and_opaque_iff :
    program.isRecord ty = true ∧ program.isAnydata ty = false ↔ program.HasOpaqueField ty := by
  unfold isRecord HasOpaqueField
  cases h : program.recordType? ty with
  | none => simp
  | some r =>
    rw [← Bool.not_eq_true (program.isAnydata ty), isAnydata_iff_of_recordType? h]
    simp

theorem isRecordArray_and_opaque_iff :
    program.isRecordArray ty = true ∧ program.isAnydata ty = false ↔
      program.HasOpaqueElement ty := by
  unfold isRecordArray HasOpaqueElement
  split
  · next element h =>
    rw [isAnydata_eq_of_resolveAlias h, isAnydata_array, isRecord_and_opaque_iff]
    simp [h]
  · next h =>
    constructor
    · rintro ⟨⟨⟩, -⟩
    · rintro ⟨element, he, -⟩
      exact absurd he (h element)

/-- A record that is taken for plain data is asked for its fields, here behind its aliases. -/
theorem isAnydata_of_isRecord_and (h : program.resolveAlias ty = resolved)
    (accepted : (program.isRecord resolved && program.isAnydata resolved) = true) :
    program.isAnydata ty = true := by
  rw [isAnydata_eq_of_resolveAlias h]
  exact (Bool.and_eq_true_iff.1 accepted).2

theorem hasOpaqueField_resolveAlias :
    program.HasOpaqueField (program.resolveAlias ty) ↔ program.HasOpaqueField ty := by
  unfold HasOpaqueField
  rw [recordType?_resolveAlias]

theorem isRecord_map (program : Program) (ty : TypeExpr) :
    program.isRecord (.map ty) = false := by
  simp [isRecord, recordType?, resolveAlias, resolveAliasWithin]

/-! ## The tests that the bindings share -/

theorem isAnydata_of_isBlobData (h : isBlobData program ty = true) :
    program.isAnydata ty = true := by
  rcases Bool.or_eq_true_iff.1 h with text | bytes
  · exact isAnydata_of_resolveAlias_builtin (eq_of_beq text) (by decide) (by decide)
  · rw [← isAnydata_resolveAlias]
    exact isAnydata_of_isByteArray bytes

theorem isAnydata_of_isBasic (h : program.isBasic ty = true) : program.isAnydata ty = true := by
  unfold isBasic at h
  split at h
  · next element hr =>
    rw [isAnydata_eq_of_resolveAlias hr, isAnydata_array, ← isAnydata_resolveAlias]
    exact isAnydata_of_isBasicScalar h
  · rw [← isAnydata_resolveAlias]
    exact isAnydata_of_isBasicScalar h

/-- A test behind the value of a type that only plain data passes. -/
theorem isAnydata_of_value {test : TypeExpr → Bool}
    (data : ∀ value, test value = true → program.isAnydata value = true)
    (h : ((program.valueBehind? ty).map test).getD false = true) :
    program.isAnydata ty = true := by
  cases hv : program.valueBehind? ty with
  | none => simp [hv] at h
  | some value =>
    rw [← isAnydata_of_valueBehind? hv]
    apply data
    simpa [hv] using h

/-- The documents that are no plain data are the records and arrays of records that are none, if
what else is taken for a document is plain data. -/
theorem isDocument_and_opaque_iff {json : Bool} (data : json = true → program.isAnydata ty = true) :
    (json || program.isRecord ty || program.isRecordArray ty) = true ∧
        program.isAnydata ty = false ↔
      program.IsOpaqueDocument ty := by
  unfold IsOpaqueDocument
  rw [← isRecord_and_opaque_iff, ← isRecordArray_and_opaque_iff, ← or_and_right]
  simp only [Bool.or_eq_true_iff]
  refine and_congr_left fun foreign => ⟨fun accepted => ?_, fun accepted => ?_⟩
  · rcases accepted with (text | record) | array
    · rw [data text] at foreign
      cases foreign
    · exact .inl record
    · exact .inr array
  · exact accepted.imp_left .inr

end Program

variable {program : Program} {ty value : TypeExpr}

/-! ## Triggers -/

namespace Listener

variable {l : Listener}

/-- Every trigger but that of a database takes plain data only. -/
theorem isAnydata_of_accepts (other : l ≠ .cosmos) (h : l.accepts program ty = true) :
    program.isAnydata ty = true := by
  cases l with
  | http => exact h
  | cosmos => exact absurd rfl other
  | blob => exact Program.isAnydata_of_isBlobData h
  | queue =>
    dsimp only [accepts] at h
    split at h
    · next hr => exact Program.isAnydata_of_resolveAlias_builtin hr (by decide) (by decide)
    · next hr => exact Program.isAnydata_of_resolveAlias_builtin hr (by decide) (by decide)
    · next hr => rwa [Program.isAnydata_eq_of_resolveAlias hr]
    · exact Program.isAnydata_of_isRecord_and rfl h
  | timer =>
    dsimp only [accepts] at h
    split at h
    · next hr => exact Program.isAnydata_of_resolveAlias_builtin hr (by decide) (by decide)
    · next hr => exact Program.isAnydata_of_resolveAlias_builtin hr (by decide) (by decide)
    · exact Program.isAnydata_of_isRecord_and rfl h

/-- The trigger of a database takes arrays of records, whatever their fields hold. -/
theorem accepts_cosmos_and_opaque_iff :
    Listener.cosmos.accepts program ty = true ∧ program.isAnydata ty = false ↔
      program.HasOpaqueElement ty := by
  unfold Program.HasOpaqueElement
  dsimp only [accepts]
  split
  · next hr =>
    rw [Program.isAnydata_eq_of_resolveAlias hr, Program.isAnydata_builtin (by decide) (by decide)]
    simp [hr]
  · next element hr =>
    rw [Program.isAnydata_eq_of_resolveAlias hr, Program.isAnydata_array,
      ← Program.isAnydata_resolveAlias, hr]
    simp only [TypeExpr.array.injEq, exists_eq_left']
    rw [← Program.hasOpaqueField_resolveAlias, ← Program.isRecord_and_opaque_iff]
    split
    · next he =>
      rw [he, Program.isAnydata_builtin (by decide) (by decide)]
      simp
    · next value he =>
      -- A map is no record, and as data it is accepted only if it is plain.
      rw [he, Program.isRecord_map]
      simp
    · rfl
  · next isArray =>
    constructor
    · rintro ⟨⟨⟩, -⟩
    · rintro ⟨element, he, -⟩
      exact absurd he (isArray element)

/-- What a trigger takes that is no plain data: arrays of documents of a database. -/
theorem accepts_and_opaque_iff :
    l.accepts program ty = true ∧ program.isAnydata ty = false ↔
      l = .cosmos ∧ program.HasOpaqueElement ty := by
  by_cases other : l = .cosmos
  · subst other
    simp [accepts_cosmos_and_opaque_iff]
  · refine iff_of_false ?_ (by simp [other])
    rintro ⟨h, foreign⟩
    rw [isAnydata_of_accepts other h] at foreign
    cases foreign

end Listener

/-! ## Parameters -/

namespace Role

variable {role : Role} {site : ParamSite}

theorem checkBindingType_eq_ok {kind : BindingKind} {accepted : Bool} :
    checkBindingType kind site accepted = .ok () ↔ accepted = true := by
  unfold checkBindingType
  cases accepted <;> simp

theorem isAnydata_of_isHeaderValue (h : isHeaderValue program ty = true) :
    program.isAnydata ty = true :=
  Program.isAnydata_of_value (fun _ => Program.isAnydata_of_isBasic) h

theorem isAnydata_of_checkHeader (h : checkHeader program site = .ok ()) :
    program.isAnydata site.type = true := by
  unfold checkHeader at h
  split at h
  · exact isAnydata_of_isHeaderValue ‹_›
  · split at h
    · next value record hv hr =>
      split at h
      · cases h
      · next closed =>
        split at h
        · next fields =>
          rw [headerRecord?, hv, Option.bind_some] at hr
          rw [← Program.isAnydata_withoutNil hv, Program.isAnydata_iff_of_recordType? hr]
          intro part hp
          -- The record is closed, so that its parts are the types of its fields.
          have none : record.rest = none := by simpa using closed
          simp only [TypeDefinition.parts, none, Option.toList_none, List.append_nil] at hp
          obtain ⟨field, hf, rfl⟩ := List.mem_map.1 hp
          exact isAnydata_of_isHeaderValue (List.all_eq_true.1 fields field hf)
        · cases h
    · cases h

/-- A parameter of every role but the data of the trigger and the documents of a database takes
plain data only. -/
theorem isAnydata_of_check (trigger : role ≠ .payload) (document : role ≠ .documentInput)
    (h : role.check program site = .ok ()) : program.isAnydata site.type = true := by
  cases role with
  | payload => exact absurd rfl trigger
  | documentInput => exact absurd rfl document
  | path =>
    dsimp only [check] at h
    split at h
    · rw [← Program.isAnydata_resolveAlias]
      exact Program.isAnydata_of_isBasicScalar ‹_›
    · cases h
  | query =>
    obtain ⟨-, -, h⟩ := bind_eq_ok.1 h
    split at h
    · exact isAnydata_of_isHeaderValue ‹_›
    · cases h
  | header =>
    obtain ⟨-, -, h⟩ := bind_eq_ok.1 h
    exact isAnydata_of_checkHeader h
  | blobInput =>
    exact Program.isAnydata_of_value (fun _ => Program.isAnydata_of_isBlobData)
      (checkBindingType_eq_ok.1 h)
  | metadata =>
    exact Program.isAnydata_of_resolveAlias_builtin (eq_of_beq (checkBindingType_eq_ok.1 h))
      (by decide) (by decide)

/-- The documents that a parameter takes may be records whatever their fields hold. -/
theorem check_documentInput_and_opaque_iff :
    Role.documentInput.check program site = .ok () ∧ program.isAnydata site.type = false ↔
      ∃ value, program.valueBehind? site.type = some value ∧ program.IsOpaqueDocument value := by
  rw [check, checkBindingType_eq_ok]
  cases hv : program.valueBehind? site.type with
  | none => simp
  | some value =>
    rw [← Program.isAnydata_of_valueBehind? hv]
    have data : (value == .builtin .json) = true → program.isAnydata value = true := by
      intro h
      rw [eq_of_beq h]
      exact Program.isAnydata_builtin (by decide) (by decide)
    simpa [isDocumentData] using Program.isDocument_and_opaque_iff data

theorem check_payload_eq_ok :
    Role.payload.check program site = .ok () ↔ site.listener.accepts program site.type = true := by
  dsimp only [check]
  split <;> simp [*]

/-- What a parameter takes that is no plain data: documents of a database. -/
theorem check_and_opaque_iff :
    role.check program site = .ok () ∧ program.isAnydata site.type = false ↔
      role = .documentInput ∧
          (∃ value, program.valueBehind? site.type = some value ∧
            program.IsOpaqueDocument value) ∨
        role = .payload ∧ site.listener = .cosmos ∧ program.HasOpaqueElement site.type := by
  by_cases document : role = .documentInput
  · subst document
    simp [check_documentInput_and_opaque_iff]
  by_cases payload : role = .payload
  · subst payload
    rw [check_payload_eq_ok, Listener.accepts_and_opaque_iff]
    simp
  · refine iff_of_false ?_ (by simp [document, payload])
    rintro ⟨h, foreign⟩
    rw [isAnydata_of_check payload document h] at foreign
    cases foreign

end Role

/-! ## Outputs -/

namespace Output

variable {o : Output}

theorem check_eq_ok : o.check program ty = .ok () ↔ o.acceptsValue program ty.valueType = true := by
  unfold check
  split <;> simp [*]

/-- Every output but the documents of a database takes plain data only. -/
theorem isAnydata_of_acceptsValue (other : o ≠ .cosmos)
    (h : o.acceptsValue program (some value) = true) : program.isAnydata value = true := by
  cases o with
  | http => exact h
  | cosmos => exact absurd rfl other
  | blob => exact Program.isAnydata_of_isBlobData h
  | sms => exact Program.isAnydata_of_resolveAlias_builtin (eq_of_beq h) (by decide) (by decide)
  | queue =>
    dsimp only [acceptsValue] at h
    split at h
    · next hr => exact Program.isAnydata_of_resolveAlias_builtin hr (by decide) (by decide)
    · next hr => exact Program.isAnydata_of_resolveAlias_builtin hr (by decide) (by decide)
    · next hr =>
      rw [Program.isAnydata_eq_of_resolveAlias hr, Program.isAnydata_array, eq_of_beq h]
      exact Program.isAnydata_builtin (by decide) (by decide)
    · cases h

/-- What an output takes that is no plain data: documents of a database. -/
theorem check_and_opaque_iff :
    (o.check program ty = .ok () ∧
        ∃ value, ty.valueType = some value ∧ program.isAnydata value = false) ↔
      o = .cosmos ∧ ∃ value, ty.valueType = some value ∧ program.IsOpaqueDocument value := by
  rw [check_eq_ok]
  cases ty.valueType with
  | none => simp
  | some value =>
    by_cases other : o = .cosmos
    · subst other
      have data : (program.resolveAlias value == .builtin .json) = true →
          program.isAnydata value = true := by
        intro h
        exact Program.isAnydata_of_resolveAlias_builtin (eq_of_beq h) (by decide) (by decide)
      simpa [acceptsValue] using Program.isDocument_and_opaque_iff data
    · refine iff_of_false ?_ (by simp [other])
      rintro ⟨h, _, ⟨⟩, foreign⟩
      rw [isAnydata_of_acceptsValue other h] at foreign
      cases foreign

end Output

/-! ## All bindings -/

/-- **What crosses a binding is plain data, but for the documents of a database**: a record or an
array of records is read and written there whatever its fields hold, and nothing else that any
trigger, parameter or output takes is no plain data. -/
theorem opaque_accepted_iff (program : Program) :
    (∀ (l : Listener) (ty : TypeExpr),
      l.accepts program ty = true ∧ program.isAnydata ty = false ↔
        l = .cosmos ∧ program.HasOpaqueElement ty) ∧
    (∀ (role : Role) (site : ParamSite),
      role.check program site = .ok () ∧ program.isAnydata site.type = false ↔
        role = .documentInput ∧
            (∃ value, program.valueBehind? site.type = some value ∧
              program.IsOpaqueDocument value) ∨
          role = .payload ∧ site.listener = .cosmos ∧ program.HasOpaqueElement site.type) ∧
    ∀ (o : Output) (ty : TypeExpr),
      (o.check program ty = .ok () ∧
          ∃ value, ty.valueType = some value ∧ program.isAnydata value = false) ↔
        o = .cosmos ∧ ∃ value, ty.valueType = some value ∧ program.IsOpaqueDocument value :=
  ⟨fun _ _ => Listener.accepts_and_opaque_iff, fun _ _ => Role.check_and_opaque_iff,
    fun _ _ => Output.check_and_opaque_iff⟩

/-- A program with a record that holds a client of some service. -/
def sessionProgram : Program where
  name := "app"
  types := [("Session", .record ⟨[("client", .named "Client")], none⟩), ("Client", .object)]
  errors := []
  documents := []

theorem isAnydata_session : sessionProgram.isAnydata (.named "Session") = false := by
  have client : sessionProgram.isAnydata (.named "Client") = false := by
    have object : sessionProgram.definition? "Client" = some .object := by decide +kernel
    rw [← Bool.not_eq_true, Program.isAnydata_named, object]
    simp
  have record : sessionProgram.definition? "Session" =
      some (.record ⟨[("client", .named "Client")], none⟩) := by decide +kernel
  rw [← Bool.not_eq_true, Program.isAnydata_named, record]
  simp [TypeDefinition.parts, client]

/-- A record that holds a client is read and written as a document of a database, although it is no
plain data and a queue refuses it. -/
theorem session_accepted :
    sessionProgram.isAnydata (.named "Session") = false ∧
      sessionProgram.isAnydata (.array (.named "Session")) = false ∧
      Listener.cosmos.accepts sessionProgram (.array (.named "Session")) = true ∧
      Role.documentInput.check sessionProgram ⟨"session", .named "Session", none, .http⟩ = .ok () ∧
      (TypeExpr.named "Session").valueType = some (.named "Session") ∧
      Output.cosmos.check sessionProgram (.named "Session") = .ok () ∧
      Listener.queue.accepts sessionProgram (.named "Session") = false := by
  have resolved : sessionProgram.resolveAlias (.named "Session") = .named "Session" := by
    decide +kernel
  refine ⟨isAnydata_session, ?_, by decide +kernel, ?_, by decide +kernel, ?_, ?_⟩
  · rw [Program.isAnydata_array]
    exact isAnydata_session
  · rw [Role.check, Role.checkBindingType_eq_ok]
    decide +kernel
  · rw [Output.check_eq_ok]
    decide +kernel
  · simp [Listener.accepts, resolved, isAnydata_session]

end FunctionApp
