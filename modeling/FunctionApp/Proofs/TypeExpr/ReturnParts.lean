import FunctionApp.Proofs.TypeExpr.Unions

/-!
# The parts of a return type

Of a return type three things are asked: the value that it has apart from `error` and `()`, whether
there may be an `error` instead, and whether there may be nothing. They look at the type each in its
own way: the value part is made of the members of one union, the two questions go into unions inside
unions. On normal types they agree, and every member is one of the three parts, once
(`members_accounted`).
-/

namespace FunctionApp.TypeExpr

variable {ty value m : TypeExpr}

/-- The parts of a return type: the members of its value part, then `error` and `()` as far as they
are among its values. -/
def returnParts (ty : TypeExpr) : List TypeExpr :=
  ty.valueType.elim [] unionMembers ++
    ((if ty.containsError then [.builtin .error] else []) ++ if ty.isNilable then [.nil] else [])

/-! ## The value part -/

theorem elim_valueType (h : Normal ty) : ty.valueType.elim [] unionMembers = ty.valueMembers := by
  cases part : ty.valueType with
  | none => exact (unionOf?_eq_none_iff.1 part).symm
  | some value => exact unionMembers_valueType h part

theorem sublist_valueType (h : Normal ty) (part : ty.valueType = some value) :
    value.unionMembers.Sublist ty.unionMembers := by
  rw [unionMembers_valueType h part, valueMembers_eq_filter]
  exact List.filter_sublist

theorem isNilable_valueType (h : Normal ty) (part : ty.valueType = some value) :
    value.isNilable = false := by
  rw [Bool.eq_false_iff, ne_eq, isNilable_iff_mem (normal_valueType h part),
    unionMembers_valueType h part, mem_valueMembers]
  rintro ⟨-, notNil, -⟩
  exact notNil rfl

theorem containsError_valueType (h : Normal ty) (part : ty.valueType = some value) :
    value.containsError = false := by
  rw [Bool.eq_false_iff, ne_eq, containsError_iff_mem (normal_valueType h part),
    unionMembers_valueType h part, mem_valueMembers]
  rintro ⟨-, -, notError⟩
  exact notError rfl

/-! ## Every member once -/

theorem mem_returnParts (h : Normal ty) : m ∈ ty.returnParts ↔ m ∈ ty.unionMembers := by
  have parts : m ∈ ty.returnParts ↔
      (m ∈ ty.unionMembers ∧ m ≠ .nil ∧ m ≠ .builtin .error) ∨
      (.builtin .error ∈ ty.unionMembers ∧ m = .builtin .error) ∨
      (.nil ∈ ty.unionMembers ∧ m = .nil) := by
    rw [returnParts, elim_valueType h, List.mem_append, List.mem_append, mem_valueMembers,
      List.mem_ite_nil_right, List.mem_ite_nil_right, containsError_iff_mem h,
      isNilable_iff_mem h, List.mem_singleton, List.mem_singleton]
  rw [parts]
  constructor
  · rintro (⟨mem, -⟩ | ⟨mem, rfl⟩ | ⟨mem, rfl⟩)
    · exact mem
    · exact mem
    · exact mem
  · intro mem
    by_cases absent : m = .nil
    · exact .inr (.inr ⟨absent ▸ mem, absent⟩)
    · by_cases failed : m = .builtin .error
      · exact .inr (.inl ⟨failed ▸ mem, failed⟩)
      · exact .inl ⟨mem, absent, failed⟩

theorem nodup_returnParts (h : Normal ty) : ty.returnParts.Nodup := by
  have values : ty.valueMembers.Nodup := by
    rw [valueMembers_eq_filter]
    exact (nodup_unionMembers h).filter _
  rw [returnParts, elim_valueType h, List.nodup_append]
  refine ⟨values, ?_, ?_⟩
  · cases ty.containsError <;> cases ty.isNilable <;> simp
  · intro a ha b hb
    obtain ⟨-, notNil, notError⟩ := mem_valueMembers.1 ha
    rw [List.mem_append, List.mem_ite_nil_right, List.mem_ite_nil_right, List.mem_singleton,
      List.mem_singleton] at hb
    obtain ⟨-, rfl⟩ | ⟨-, rfl⟩ := hb
    · exact notError
    · exact notNil

theorem perm_returnParts (h : Normal ty) : ty.unionMembers.Perm ty.returnParts := by
  refine (List.perm_ext_iff_of_nodup (nodup_unionMembers h) (nodup_returnParts h)).2 fun m => ?_
  exact (mem_returnParts h).symm

/-! ## `()` taken away and put back -/

theorem mem_optional (h : Normal ty) :
    m ∈ (optional ty).unionMembers ↔ m ∈ ty.unionMembers ∨ m = .nil := by
  have each : ∀ part ∈ [ty, .nil], Normal part := by
    simpa using ⟨h, Normal.nil⟩
  rw [optional, unionMembers_unionOf each, List.mem_eraseDups]
  simp [unionMembers]

theorem mem_optional_withoutNil (h : Normal ty) (left : ty.withoutNil = some value) :
    m ∈ (optional value).unionMembers ↔ m ∈ ty.unionMembers ∨ m = .nil := by
  rw [mem_optional (normal_withoutNil h left), unionMembers_withoutNil h left, mem_nonNilMembers]
  by_cases absent : m = .nil
  · exact iff_of_true (.inr absent) (.inr absent)
  · exact or_congr_left (and_iff_left absent)

/-- **Taking a return type apart loses nothing.** Of every type that was read, and of its effective
form, each member is exactly one of the parts: a member of the value part, which keeps their order,
or `error`, which is a part just if the type contains it, or `()`, which is one just if the type may
be absent. There is no value part just if every member is `()` or `error`, and a value part has
neither of them among its values. Only of `()` nothing is left without `()`; what is left of another
type may not be absent, and with `()` put back it has the members of the type and `()`, each once. -/
theorem members_accounted {text : String} {written : TypeExpr} (read : parse text = .ok written)
    (form : ty = written ∨ effective written = .ok ty) :
    (ty.unionMembers.Perm ty.returnParts ∧ ty.returnParts.Nodup ∧
      (ty.containsError = true ↔ .builtin .error ∈ ty.unionMembers) ∧
      (ty.isNilable = true ↔ .nil ∈ ty.unionMembers)) ∧
    (ty.valueType = none ↔ ∀ m ∈ ty.unionMembers, m = .nil ∨ m = .builtin .error) ∧
    (∀ value, ty.valueType = some value → value.unionMembers.Sublist ty.unionMembers ∧
      value.isNilable = false ∧ value.containsError = false) ∧
    (ty.withoutNil = none ↔ ty = .nil) ∧
    ∀ value, ty.withoutNil = some value → value.isNilable = false ∧
      (optional value).unionMembers.Nodup ∧
      ∀ m, m ∈ (optional value).unionMembers ↔ m ∈ ty.unionMembers ∨ m = .nil := by
  have h : Normal ty := by
    obtain rfl | reduced := form
    · exact normal_of_parse read
    · exact normal_effective (normal_of_parse read) reduced
  refine ⟨?parts, valueType_eq_none_iff, ?values, withoutNil_eq_none_iff h, ?rest⟩
  case parts =>
    exact ⟨perm_returnParts h, nodup_returnParts h, containsError_iff_mem h, isNilable_iff_mem h⟩
  case values =>
    intro value part
    exact ⟨sublist_valueType h part, isNilable_valueType h part, containsError_valueType h part⟩
  case rest =>
    intro value left
    have normal : Normal (optional value) := normal_optional (normal_withoutNil h left)
    refine ⟨isNilable_withoutNil h left, nodup_unionMembers normal, fun m => ?_⟩
    exact mem_optional_withoutNil h left

theorem members_accounted_readonly :
    let ty : TypeExpr := .union [.builtin .error, .named "A", .nil, .named "B"]
    (∃ written, parse "readonly & (error|A)|()|B" = .ok written ∧ effective written = .ok ty) ∧
    ty.returnParts = [.named "A", .named "B", .builtin .error, .nil] ∧
    ty.unionMembers.Perm ty.returnParts ∧
    ∃ value, ty.withoutNil = some value ∧ value.isNilable = false ∧
      ∀ m, m ∈ (optional value).unionMembers ↔ m ∈ ty.unionMembers ∨ m = .nil := by
  intro ty
  let both : TypeExpr := .intersection [.builtin .readonly, .union [.builtin .error, .named "A"]]
  have read : parse "readonly & (error|A)|()|B" = .ok (.union [both, .nil, .named "B"]) := by
    decide +kernel
  have reduced : effective (.union [both, .nil, .named "B"]) = .ok ty := by
    decide +kernel
  have left : ty.withoutNil = some (.union [.builtin .error, .named "A", .named "B"]) := by
    decide +kernel
  obtain ⟨⟨parts, -⟩, -, -, -, rest⟩ := members_accounted read (.inr reduced)
  obtain ⟨present, -, putBack⟩ := rest _ left
  exact ⟨⟨_, read, reduced⟩, by decide +kernel, parts, _, left, present, putBack⟩

end FunctionApp.TypeExpr
