import FunctionApp.Proofs.Handler.Data
import FunctionApp.Proofs.TypeExpr.Members

/-!
# What parameters and outputs take behind aliases

A parameter is taken by what is left of its type without `()`, and a result by what is left without
`()` and `error`, and only then the aliases are followed. So an alias is taken as its body is,
unless the body is a union: of the names of optional types and of unions with `error` nothing is
taken away (`taken_behind_alias`). Only data for an HTTP response is taken member by member.
-/

namespace FunctionApp

open TypeExpr

variable {program : Program} {ty other value : TypeExpr} {members : List TypeExpr} {name : String}

namespace Program

theorem SameEnd.isBlobData (h : SameEnd program ty other) :
    FunctionApp.isBlobData program ty = FunctionApp.isBlobData program other := by
  unfold FunctionApp.isBlobData
  rcases h.resolves with same | ⟨n, m, -, -, hn, hm, -, -⟩
  · rw [same]
  · simp [hn, hm, isByteArray]

theorem valueBehind?_named :
    program.valueBehind? (.named name) = some (program.resolveAlias (.named name)) := by
  rw [valueBehind?, withoutNil_named]
  rfl

/-- Only behind `()` there is no value. -/
theorem valueBehind?_eq_none_iff (h : Normal ty) : program.valueBehind? ty = none ↔ ty = .nil := by
  rw [valueBehind?, Option.map_eq_none_iff, withoutNil_eq_none_iff h]

/-- The value behind a type has `()` only if it is that of a name. -/
theorem isNilable_valueBehind?_iff (h : Normal ty) (hv : program.valueBehind? ty = some value) :
    value.isNilable = true ↔ ∃ n, ty.withoutNil = some (.named n) ∧
      (program.resolveAlias (.named n)).isNilable = true := by
  obtain ⟨left, hl, rfl⟩ := Option.map_eq_some_iff.1 hv
  rw [hl]
  by_cases isName : ∃ n, left = .named n
  · obtain ⟨n, rfl⟩ := isName
    simp
  · have kept : program.resolveAlias left = left :=
      resolveAlias_of_not_named fun n hn => isName ⟨n, hn⟩
    rw [kept, isNilable_withoutNil h hl]
    refine iff_of_false nofun ?_
    rintro ⟨n, hn, -⟩
    exact isName ⟨n, Option.some.inj hn⟩

theorem isAnydata_iff_unionMembers :
    program.isAnydata ty = true ↔ ∀ m ∈ ty.unionMembers, program.isAnydata m = true := by
  cases ty with
  | union => exact isAnydata_union
  | _ => simp [unionMembers]

/-- A test of the value behind a type is one of what is left of the type without `()`. -/
theorem valueBehind?_passes_iff {test : TypeExpr → Bool} :
    ((program.valueBehind? ty).map test).getD false = true ↔
      ∃ value, ty.withoutNil = some value ∧ test (program.resolveAlias value) = true := by
  unfold valueBehind?
  cases ty.withoutNil <;> simp

end Program

/-! ## Parameters -/

namespace Role

variable {role : Role} {site : ParamSite}

/-- The roles of parameters that may be without a value. -/
def isOptional : Role → Bool
  | .query | .header | .documentInput | .blobInput => true
  | .path | .payload | .metadata => false

/-- What a parameter takes of a type without `()`. -/
def Takes (role : Role) (program : Program) (value : TypeExpr) : Prop :=
  match role with
  | .query => program.isBasic value = true
  | .header =>
    program.isBasic value = true ∨
      ∃ r, program.recordType? value = some r ∧ r.rest = none ∧
        ∀ field ∈ r.fields, isHeaderValue program field.2 = true
  | .documentInput =>
    program.resolveAlias value = .builtin .json ∨ program.isRecord value = true ∨
      program.isRecordArray value = true
  | .blobInput => isBlobData program value = true
  | .path | .payload | .metadata => False

attribute [grind =] isOptional Takes

theorem requireHttp_and_eq_ok {kind : AnnotationKind} {next : Unit → Except Problem Unit} :
    requireHttp site kind >>= next = .ok () ↔ site.listener = .http ∧ next () = .ok () := by
  unfold requireHttp
  split <;> simp [bind, Except.bind, *]

theorem isHeaderValue_iff : isHeaderValue program ty = true ↔
    ∃ value, ty.withoutNil = some value ∧ program.isBasic value = true := by
  unfold isHeaderValue
  rw [Program.valueBehind?_passes_iff]
  simp only [(Program.sameEnd_resolveAlias program _).isBasic]

example : isHeaderValue ⟨"shop", [("Id", .alias (.builtin .int))], [], []⟩
    (.union [.named "Id", .nil]) = true := by
  decide +kernel

theorem checkHeader_eq_ok : checkHeader program site = .ok () ↔
    ∃ value, site.type.withoutNil = some value ∧ Role.header.Takes program value := by
  unfold checkHeader headerRecord?
  cases hv : site.type.withoutNil with
  | none =>
    have plain : isHeaderValue program site.type = false := by
      rw [← Bool.not_eq_true, isHeaderValue_iff, hv]
      simp
    simp [plain]
  | some value =>
    have plain : isHeaderValue program site.type = program.isBasic value := by
      rw [Bool.eq_iff_iff, isHeaderValue_iff, hv]
      simp
    rw [plain]
    simp only [Option.bind_some, Option.some.injEq, exists_eq_left', Takes]
    cases program.isBasic value with
    | true => simp
    | false =>
      cases program.recordType? value with
      | none => simp
      | some r => cases hr : r.rest <;> simp [hr]

/-- **What is left of its type without `()` decides about a parameter that may be absent**, on an
HTTP handler where its role asks for one. -/
theorem check_eq_ok_iff (optional : role.isOptional = true) : role.check program site = .ok () ↔
    (role = .query ∨ role = .header → site.listener = .http) ∧
      ∃ value, site.type.withoutNil = some value ∧ role.Takes program value := by
  cases role with
  | query =>
    have basic : ((program.valueBehind? site.type).map program.isBasic).getD false = true ↔ _ :=
      isHeaderValue_iff
    dsimp only [check]
    rw [requireHttp_and_eq_ok]
    simp [Takes, ← basic]
  | header =>
    dsimp only [check]
    rw [requireHttp_and_eq_ok, checkHeader_eq_ok]
    simp
  | documentInput =>
    rw [check, checkBindingType_eq_ok, Program.valueBehind?_passes_iff]
    simp [isDocumentData, Takes, Program.isRecord, Program.recordType?_resolveAlias,
      (Program.sameEnd_resolveAlias program _).isRecordArray, or_assoc]
  | blobInput =>
    rw [check, checkBindingType_eq_ok, Program.valueBehind?_passes_iff]
    simp [Takes, (Program.sameEnd_resolveAlias program _).isBlobData]
  | _ => cases optional

theorem takes_congr (h : program.SameEnd ty other) :
    role.Takes program ty ↔ role.Takes program other := by
  cases role with
  | query => simp only [Takes, h.isBasic]
  | header => simp only [Takes, h.isBasic, h.recordType?]
  | documentInput =>
    have json := h.resolveAlias_eq_iff (r := .builtin .json) (by simp)
    simp only [Takes, json, h.isRecord, h.isRecordArray]
  | blobInput => simp only [Takes, h.isBlobData]
  | _ => rfl

theorem not_takes_of_not_named (h : (∃ members, value = .union members) ∨ value = .nil) :
    ¬role.Takes program value := by
  rcases h with ⟨members, rfl⟩ | rfl <;> cases role <;>
    simp [Takes, Program.isBasic, Program.isRecord, Program.recordType?, Program.isRecordArray,
      isBlobData, Program.resolveAlias_of_not_named, isBasicScalar, isByteArray]

/-- A parameter that may be absent takes an alias if it takes the body, and that is no union. -/
theorem check_alias_iff (optional : role.isOptional = true) (h : program.alias? name = some ty)
    (param : String) (mark : Option Annotation) (listener : Listener) :
    role.check program ⟨param, .named name, mark, listener⟩ = .ok () ↔
      role.check program ⟨param, ty, mark, listener⟩ = .ok () ∧ ty.isUnion = false := by
  have unions : ∀ members, ¬role.Takes program (.union members) :=
    fun members => not_takes_of_not_named (.inl ⟨members, rfl⟩)
  rw [check_eq_ok_iff optional, check_eq_ok_iff optional, and_assoc,
    ← passes_iff_withoutNil unions (not_takes_of_not_named (.inr rfl)),
    ← takes_congr (Program.sameEnd_of_alias? h), withoutNil_named]
  simp

end Role

/-! ## Outputs -/

namespace Output

variable {o : Output}

/-- An output with a value, that is no HTTP response, is written if its value part can be. -/
theorem check_eq_ok_iff (other : o ≠ .http) : o.check program ty = .ok () ↔
    ∃ value, ty.valueType = some value ∧ o.acceptsValue program (some value) = true := by
  rw [check_eq_ok]
  cases ty.valueType with
  | none => cases o <;> simp [acceptsValue] at other ⊢
  | some value => simp

theorem acceptsValue_congr (o_ne : o ≠ .http) (h : program.SameEnd ty other) :
    o.acceptsValue program (some ty) = o.acceptsValue program (some other) := by
  cases o with
  | http => exact absurd rfl o_ne
  | queue =>
    dsimp only [acceptsValue]
    rcases h.resolves with same | ⟨n, m, -, -, hn, hm, -, -⟩
    · rw [same]
    · simp only [hn, hm]
  | cosmos =>
    have json := h.resolveAlias_eq_iff (r := .builtin .json) (by simp)
    simp only [acceptsValue, beq_eq_decide, json, h.isRecord, h.isRecordArray]
  | blob => exact h.isBlobData
  | sms =>
    have string := h.resolveAlias_eq_iff (r := .builtin .string) (by simp)
    simp only [acceptsValue, beq_eq_decide, string]

theorem not_acceptsValue_of_not_named (o_ne : o ≠ .http)
    (h : (∃ members, value = .union members) ∨ value = .nil ∨ value = .builtin .error) :
    ¬o.acceptsValue program (some value) = true := by
  rcases h with ⟨members, rfl⟩ | rfl | rfl <;> cases o <;>
    simp [acceptsValue, Program.isRecord, Program.recordType?, Program.isRecordArray, isBlobData,
      Program.resolveAlias_of_not_named, isByteArray] at o_ne ⊢

/-- A response is written if the members of the result other than `error` are plain data. -/
theorem check_http_eq_ok_iff : Output.http.check program ty = .ok () ↔
    ∀ m ∈ ty.unionMembers, m ≠ .builtin .error → program.isAnydata m = true := by
  have values : Output.http.check program ty = .ok () ↔
      ∀ m ∈ ty.valueMembers, program.isAnydata m = true := by
    rw [check_eq_ok]
    cases hv : ty.valueType with
    | none => simp [acceptsValue, unionOf?_eq_none_iff.1 hv]
    | some value => exact Program.isAnydata_of_unionOf? hv
  rw [values]
  refine forall_congr' fun m => ?_
  rw [mem_valueMembers]
  by_cases absent : m = .nil
  · subst absent
    simp [Program.isAnydata_nil]
  · simp [absent]

/-- An output that needs a value takes an alias if it takes the body, and that is no union. -/
theorem check_alias_iff (o_ne : o ≠ .http) (h : program.alias? name = some ty) :
    o.check program (.named name) = .ok () ↔
      o.check program ty = .ok () ∧ ty.isUnion = false := by
  have unions : ∀ members, ¬o.acceptsValue program (some (.union members)) = true :=
    fun members => not_acceptsValue_of_not_named o_ne (.inl ⟨members, rfl⟩)
  rw [check_eq_ok_iff o_ne, check_eq_ok_iff o_ne,
    ← passes_iff_valueType unions (not_acceptsValue_of_not_named o_ne (.inr (.inl rfl)))
      (not_acceptsValue_of_not_named o_ne (.inr (.inr rfl))),
    ← acceptsValue_congr o_ne (Program.sameEnd_of_alias? h), valueType_named]
  simp

/-- A response takes an alias if it takes the body, and that has no member `error`. -/
theorem check_http_alias_iff (h : program.alias? name = some ty) :
    Output.http.check program (.named name) = .ok () ↔
      Output.http.check program ty = .ok () ∧ .builtin .error ∉ ty.unionMembers := by
  have named : (∀ m ∈ unionMembers (.named name), m ≠ .builtin .error →
      program.isAnydata m = true) ↔ program.isAnydata ty = true := by
    simp [unionMembers, Program.isAnydata_of_alias? h]
  rw [check_http_eq_ok_iff, check_http_eq_ok_iff, named, Program.isAnydata_iff_unionMembers]
  constructor
  · intro all
    refine ⟨fun m hm _ => all m hm, fun he => ?_⟩
    exact absurd (all _ he) (by simp [Program.isAnydata, dataNames?])
  · rintro ⟨all, noError⟩ m hm
    exact all m hm fun he => noError (he ▸ hm)

end Output

/-! ## Parameters and outputs -/

/-- **An alias is taken as its body is, unless the body is a union.** A query or header value and an
input may have the type `name` if and only if they may have its body `ty` and that is no union, and
a result may be of the type `name` under the same condition, but for HTTP, where `error` must not be
among the members. For the value behind a name is what the name resolves to, whatever that is:
nothing is taken from it. Only `()` itself has no value behind it, and a value has `()` only if the
name that is left of the type resolves to one that has. -/
theorem taken_behind_alias (h : program.alias? name = some ty) :
    (∀ role ∈ [Role.query, .header, .documentInput, .blobInput], ∀ param mark listener,
      role.check program ⟨param, .named name, mark, listener⟩ = .ok () ↔
        role.check program ⟨param, ty, mark, listener⟩ = .ok () ∧ ty.isUnion = false) ∧
    (∀ o, o ≠ Output.http → (o.check program (.named name) = .ok () ↔
      o.check program ty = .ok () ∧ ty.isUnion = false)) ∧
    (Output.http.check program (.named name) = .ok () ↔
      Output.http.check program ty = .ok () ∧ .builtin .error ∉ ty.unionMembers) ∧
    program.valueBehind? (.named name) = some (program.resolveAlias (.named name)) ∧
    ∀ written, Normal written →
      (program.valueBehind? written = none ↔ written = .nil) ∧
      ∀ value, program.valueBehind? written = some value →
        (value.isNilable = true ↔ ∃ n, written.withoutNil = some (.named n) ∧
          (program.resolveAlias (.named n)).isNilable = true) := by
  refine ⟨fun role hr => ?_, fun o o_ne => Output.check_alias_iff o_ne h,
    Output.check_http_alias_iff h, Program.valueBehind?_named, fun written hw =>
      ⟨Program.valueBehind?_eq_none_iff hw, fun value => Program.isNilable_valueBehind?_iff hw⟩⟩
  have optional : role.isOptional = true := by
    simp only [List.mem_cons, List.not_mem_nil, or_false] at hr
    rcases hr with rfl | rfl | rfl | rfl <;> rfl
  exact Role.check_alias_iff optional h

/-- A program with names for a number, for an optional one, for a text or an error, and for `()`. -/
def countsProgram : Program where
  name := "app"
  types := [("Count", .alias (.builtin .int)),
    ("MaybeCount", .alias (.union [.builtin .int, .nil])),
    ("Outcome", .alias (.union [.builtin .string, .builtin .error])),
    ("Nothing", .alias .nil)]
  errors := []
  documents := []

theorem takes_count : Role.query.Takes countsProgram (.builtin .int) := by
  have basic : countsProgram.isBasic (.builtin .int) = true := by decide +kernel
  exact basic

theorem taken_behind_alias_count :
    countsProgram.alias? "Count" = some (.builtin .int) ∧
      Role.query.check countsProgram ⟨"count", .named "Count", none, .http⟩ = .ok () ∧
      Output.http.check countsProgram (.named "Count") = .ok () := by
  have body : countsProgram.alias? "Count" = some (.builtin .int) := by decide +kernel
  obtain ⟨parameters, -, response, -⟩ := taken_behind_alias body
  refine ⟨body, (parameters .query (by simp) "count" none .http).2 ⟨?_, rfl⟩,
    response.2 ⟨?_, by simp [unionMembers]⟩⟩
  · rw [Role.check_eq_ok_iff rfl]
    exact ⟨fun _ => rfl, .builtin .int, rfl, takes_count⟩
  · rw [Output.check_http_eq_ok_iff]
    intro m hm _
    obtain rfl := List.mem_singleton.1 hm
    exact Program.isAnydata_builtin (by decide) (by decide)

/-- An optional number is a query value and a text or an error is the result of a message, but
neither is so under its name, and the value behind the name of an optional type may be `()`. -/
theorem optional_not_taken_behind_alias :
    countsProgram.alias? "MaybeCount" = some (.union [.builtin .int, .nil]) ∧
      countsProgram.LeadsTo (.union [.builtin .int, .nil]) 1 (.named "MaybeCount") ∧
      Role.query.check countsProgram ⟨"count", .union [.builtin .int, .nil], none, .http⟩ =
        .ok () ∧
      Role.query.check countsProgram ⟨"count", .named "MaybeCount", none, .http⟩ ≠ .ok () ∧
      countsProgram.alias? "Outcome" = some (.union [.builtin .string, .builtin .error]) ∧
      Output.sms.check countsProgram (.union [.builtin .string, .builtin .error]) = .ok () ∧
      Output.sms.check countsProgram (.named "Outcome") ≠ .ok () ∧
      countsProgram.valueBehind? (.named "MaybeCount") = some (.union [.builtin .int, .nil]) ∧
      countsProgram.valueBehind? (.named "Nothing") = some .nil := by
  have maybe : countsProgram.alias? "MaybeCount" = some (.union [.builtin .int, .nil]) := by
    decide +kernel
  have outcome : countsProgram.alias? "Outcome" =
      some (.union [.builtin .string, .builtin .error]) := by decide +kernel
  refine ⟨maybe, .behind maybe (.of_not_named (by simp)), ?_, fun taken => ?_, outcome, ?_,
    fun taken => ?_, by decide +kernel, by decide +kernel⟩
  · rw [Role.check_eq_ok_iff rfl]
    exact ⟨fun _ => rfl, .builtin .int, rfl, takes_count⟩
  · rw [Role.check_eq_ok_iff rfl] at taken
    obtain ⟨-, value, hv, taken⟩ := taken
    obtain rfl := Option.some.inj (hv.symm.trans withoutNil_named)
    have notBasic : countsProgram.isBasic (.named "MaybeCount") = false := by decide +kernel
    exact absurd taken (by simp [Role.Takes, notBasic])
  · rw [Output.check_eq_ok_iff (by decide)]
    exact ⟨.builtin .string, rfl, by decide +kernel⟩
  · rw [Output.check_eq_ok_iff (by decide)] at taken
    obtain ⟨value, hv, taken⟩ := taken
    obtain rfl := Option.some.inj (hv.symm.trans valueType_named)
    exact absurd taken (by decide +kernel)

end FunctionApp
