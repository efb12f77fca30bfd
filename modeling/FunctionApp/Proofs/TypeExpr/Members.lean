import FunctionApp.Proofs.TypeExpr.Normal

/-!
# The parts of a type without its absent value

A type that is no union is left as it is when `()`, or `()` and `error`, are taken from it, or
nothing is left. What is left of a type in normal form has the other members, in their order
(`unionMembers_of_filter`), and no value `()`. Whether a normal type has the value `()` or `error` is
seen from its members, since none of them is a union.
-/

namespace FunctionApp.TypeExpr

variable {ty value r : TypeExpr} {types members : List TypeExpr} {name : String}

theorem isNil_iff : ty.isNil = true ↔ ty = .nil := by
  cases ty <;> simp [isNil]

theorem isError_iff : ty.isError = true ↔ ty = .builtin .error := by
  cases ty with
  | builtin b => cases b <;> simp [isError]
  | _ => simp [isError]

theorem unionOf?_eq_none_iff : unionOf? types = none ↔ types = [] := by
  cases types <;> simp [unionOf?]

theorem unionOf?_eq_some_iff : unionOf? types = some r ↔ types ≠ [] ∧ unionOf types = r := by
  cases types <;> simp [unionOf?]

theorem unionOf_singleton (h : ty.isUnion = false) : unionOf [ty] = ty :=
  unionOf_eq_ofMembers (List.pairwise_singleton _ ty) (by simpa using h)

theorem withoutNil_of_not_isUnion (h : ty.isUnion = false) (value : ty ≠ .nil) :
    ty.withoutNil = some ty := by
  have members : ty.nonNilMembers = [ty] := by
    cases ty with
    | union => cases h
    | nil => exact absurd rfl value
    | _ => rfl
  rw [withoutNil, members, unionOf?, unionOf_singleton h]
  nofun

theorem valueType_of_not_isUnion (h : ty.isUnion = false) (value : ty ≠ .nil)
    (result : ty ≠ .builtin .error) : ty.valueType = some ty := by
  have members : ty.valueMembers = [ty] := by
    cases ty with
    | union => cases h
    | nil => exact absurd rfl value
    | builtin b =>
      cases b with
      | error => exact absurd rfl result
      | _ => rfl
    | _ => rfl
  rw [valueType, members, unionOf?, unionOf_singleton h]
  nofun

theorem withoutNil_named : withoutNil (.named name) = some (.named name) :=
  withoutNil_of_not_isUnion rfl nofun

theorem valueType_named : valueType (.named name) = some (.named name) :=
  valueType_of_not_isUnion rfl nofun nofun

/-- A test that neither `()` nor any union passes is one of what is left without `()`. -/
theorem passes_iff_withoutNil {P : TypeExpr → Prop} (unions : ∀ members, ¬P (.union members))
    (absent : ¬P .nil) :
    P ty ↔ (∃ value, ty.withoutNil = some value ∧ P value) ∧ ty.isUnion = false := by
  cases hu : ty.isUnion with
  | true =>
    cases ty with
    | union => simp [unions]
    | _ => cases hu
  | false =>
    by_cases hn : ty = .nil
    · subst hn
      simp [absent, withoutNil, nonNilMembers, unionOf?]
    · simp [withoutNil_of_not_isUnion hu hn]

/-- A test that neither `()` nor `error` nor any union passes is one of the value part. -/
theorem passes_iff_valueType {P : TypeExpr → Prop} (unions : ∀ members, ¬P (.union members))
    (absent : ¬P .nil) (result : ¬P (.builtin .error)) :
    P ty ↔ (∃ value, ty.valueType = some value ∧ P value) ∧ ty.isUnion = false := by
  cases hu : ty.isUnion with
  | true =>
    cases ty with
    | union => simp [unions]
    | _ => cases hu
  | false =>
    by_cases hn : ty = .nil
    · subst hn
      simp [absent, valueType, valueMembers, unionOf?]
    · by_cases he : ty = .builtin .error
      · subst he
        simp [result, valueType, valueMembers, unionOf?]
      · simp [valueType_of_not_isUnion hu hn he]

theorem valueMembers_eq_filter :
    ty.valueMembers = ty.unionMembers.filter fun m => !m.isNil && !m.isError := by
  cases ty with
  | union => rfl
  | nil => rfl
  | builtin b => cases b <;> rfl
  | _ => rfl

theorem nonNilMembers_eq_filter : ty.nonNilMembers = ty.unionMembers.filter fun m => !m.isNil := by
  cases ty <;> rfl

theorem mem_valueMembers {m : TypeExpr} :
    m ∈ ty.valueMembers ↔ m ∈ ty.unionMembers ∧ m ≠ .nil ∧ m ≠ .builtin .error := by
  rw [valueMembers_eq_filter, List.mem_filter, ne_eq, ne_eq, ← isNil_iff, ← isError_iff]
  simp

theorem mem_nonNilMembers {m : TypeExpr} :
    m ∈ ty.nonNilMembers ↔ m ∈ ty.unionMembers ∧ m ≠ .nil := by
  rw [nonNilMembers_eq_filter, List.mem_filter, ne_eq, ← isNil_iff]
  simp

/-- A type has no value part just if every member is `()` or `error`. -/
theorem valueType_eq_none_iff :
    ty.valueType = none ↔ ∀ m ∈ ty.unionMembers, m = .nil ∨ m = .builtin .error := by
  rw [valueType, unionOf?_eq_none_iff, valueMembers_eq_filter, List.filter_eq_nil_iff]
  refine forall₂_congr fun m _ => ?_
  rw [← isNil_iff, ← isError_iff]
  cases m.isNil <;> simp

theorem isSome_valueType_iff :
    ty.valueType.isSome = true ↔ ∃ m ∈ ty.unionMembers, m.isNil = false ∧ m.isError = false := by
  rw [← Option.ne_none_iff_isSome, ne_eq, valueType_eq_none_iff]
  simp [← isNil_iff, ← isError_iff]

/-- A member is the type of the members if that is no union. -/
theorem eq_of_mem_of_unionOf (h : unionOf types = value) (single : value.isUnion = false)
    {member : TypeExpr} (mem : member ∈ types) (flat : member.isUnion = false) :
    member = value := by
  have there : member ∈ (types.flatMap unionMembers).foldl addMember [] := by
    refine mem_flattened.2 ⟨member, mem, ?_⟩
    rw [unionMembers_of_not_isUnion flat]
    exact List.mem_singleton_self _
  unfold unionOf ofMembers at h
  split at h
  · next ty one =>
    rw [one, List.mem_singleton] at there
    exact there.trans h
  · rw [← h] at single
    cases single

/-- What is left without `()` is the value part too, unless it is a union or `error`. -/
theorem valueType_of_withoutNil (h : ty.withoutNil = some value) (single : value.isUnion = false)
    (result : value ≠ .builtin .error) : ty.valueType = some value := by
  obtain ⟨-, whole⟩ := unionOf?_eq_some_iff.1 h
  have noError : .builtin .error ∉ ty.nonNilMembers := fun mem =>
    result (eq_of_mem_of_unionOf whole single mem rfl).symm
  have kept : ty.valueMembers = ty.nonNilMembers := by
    rw [valueMembers_eq_filter, nonNilMembers_eq_filter]
    refine List.filter_congr fun member mem => ?_
    cases he : member.isError with
    | false => rw [Bool.not_false, Bool.and_true]
    | true =>
      obtain rfl := isError_iff.1 he
      rw [nonNilMembers_eq_filter] at noError
      exact absurd (List.mem_filter.2 ⟨mem, rfl⟩) noError
  rw [valueType, kept]
  exact h

/-! ## Types in normal form -/

theorem nodup_unionMembers (h : Normal ty) : ty.unionMembers.Nodup := by
  cases h with
  | union _ distinct => exact distinct
  | _ => exact List.pairwise_singleton _ _

/-- What is left of a normal type when members are taken from it, if anything is. -/
theorem normal_of_filter {p : TypeExpr → Bool} (h : Normal ty)
    (left : unionOf? (ty.unionMembers.filter p) = some r) : Normal r := by
  have each : ∀ m ∈ ty.unionMembers.filter p, Normal m := fun m hm =>
    ((normal_unionMembers h).2 m (List.mem_of_mem_filter hm)).2
  obtain ⟨some, rfl⟩ := unionOf?_eq_some_iff.1 left
  exact normal_unionOf some each

/-- What is left of a normal type has the members that were not taken, in their order. -/
theorem unionMembers_of_filter {p : TypeExpr → Bool} (h : Normal ty)
    (left : unionOf? (ty.unionMembers.filter p) = some r) :
    r.unionMembers = ty.unionMembers.filter p := by
  have flat : ∀ m ∈ ty.unionMembers.filter p, m.isUnion = false := fun m hm =>
    ((normal_unionMembers h).2 m (List.mem_of_mem_filter hm)).1
  have distinct : (ty.unionMembers.filter p).Nodup := (nodup_unionMembers h).filter p
  obtain ⟨-, rfl⟩ := unionOf?_eq_some_iff.1 left
  rw [unionOf_eq_ofMembers distinct flat, unionMembers_ofMembers flat]

theorem normal_withoutNil (h : Normal ty) (left : ty.withoutNil = some r) : Normal r := by
  rw [withoutNil, nonNilMembers_eq_filter] at left
  exact normal_of_filter h left

theorem normal_valueType (h : Normal ty) (left : ty.valueType = some r) : Normal r := by
  rw [valueType, valueMembers_eq_filter] at left
  exact normal_of_filter h left

theorem unionMembers_withoutNil (h : Normal ty) (left : ty.withoutNil = some r) :
    r.unionMembers = ty.nonNilMembers := by
  rw [withoutNil, nonNilMembers_eq_filter] at left
  rw [nonNilMembers_eq_filter, unionMembers_of_filter h left]

theorem unionMembers_valueType (h : Normal ty) (left : ty.valueType = some r) :
    r.unionMembers = ty.valueMembers := by
  rw [valueType, valueMembers_eq_filter] at left
  rw [valueMembers_eq_filter, unionMembers_of_filter h left]

/-- Only of `()` nothing is left without `()`. -/
theorem withoutNil_eq_none_iff (h : Normal ty) : ty.withoutNil = none ↔ ty = .nil := by
  rw [withoutNil, unionOf?_eq_none_iff]
  cases h with
  | @union tys long distinct =>
    refine iff_of_false (fun none => ?_) nofun
    have absent : ∀ m ∈ tys, m = .nil := by
      intro m hm
      have dropped := List.filter_eq_nil_iff.1 none m hm
      exact isNil_iff.1 (by simpa using dropped)
    obtain _ | ⟨first, _ | ⟨second, rest⟩⟩ := tys
    · cases long
    · simp at long
    · have first_eq := absent first (by simp)
      have second_eq := absent second (by simp)
      simp [first_eq, second_eq] at distinct
  | nil => simp [nonNilMembers]
  | _ => simp [nonNilMembers]

/-! ## Questions that go into unions -/

theorem anyNilable_eq_any : anyNilable members = members.any isNilable := by
  induction members with
  | nil => rfl
  | cons m rest ih => rw [anyNilable, ih, List.any_cons]

theorem anyContainsError_eq_any : anyContainsError members = members.any containsError := by
  induction members with
  | nil => rfl
  | cons m rest ih => rw [anyContainsError, ih, List.any_cons]

theorem isNilable_of_not_isUnion (h : ty.isUnion = false) : ty.isNilable = ty.isNil := by
  cases ty with
  | union => cases h
  | _ => simp [isNilable, isNil]

theorem containsError_of_not_isUnion (h : ty.isUnion = false) : ty.containsError = ty.isError := by
  cases ty with
  | union => cases h
  | builtin b => cases b <;> simp [containsError, isError]
  | _ => simp [containsError, isError]

/-- A test that a union passes with any of its members goes no deeper than the members of a normal
type, since these are no unions. -/
theorem passes_iff_mem {test own : TypeExpr → Bool} (h : Normal ty)
    (inside : ∀ members, test (.union members) = members.any test)
    (outside : ∀ m : TypeExpr, m.isUnion = false → test m = own m) :
    test ty = true ↔ ∃ m ∈ ty.unionMembers, own m = true := by
  have any : test ty = ty.unionMembers.any test := by
    cases hu : ty.isUnion with
    | true =>
      cases ty with
      | union members => exact inside members
      | _ => cases hu
    | false => rw [unionMembers_of_not_isUnion hu, List.any_cons, List.any_nil, Bool.or_false]
  rw [any, List.any_eq_true]
  refine exists_congr fun m => and_congr_right fun hm => ?_
  rw [outside m ((normal_unionMembers h).2 m hm).1]

/-- The value `()` is one of a normal type just if it is a member. -/
theorem isNilable_iff_mem (h : Normal ty) : ty.isNilable = true ↔ .nil ∈ ty.unionMembers := by
  have inside : ∀ members, isNilable (.union members) = members.any isNilable := by
    intro members
    rw [isNilable, anyNilable_eq_any]
  rw [passes_iff_mem h inside fun _ => isNilable_of_not_isUnion]
  simp [isNil_iff]

/-- An `error` is a value of a normal type just if it is a member. -/
theorem containsError_iff_mem (h : Normal ty) :
    ty.containsError = true ↔ .builtin .error ∈ ty.unionMembers := by
  have inside : ∀ members, containsError (.union members) = members.any containsError := by
    intro members
    rw [containsError, anyContainsError_eq_any]
  rw [passes_iff_mem h inside fun _ => containsError_of_not_isUnion]
  simp [isError_iff]

/-- What is left of a type without `()` has no value `()`. -/
theorem isNilable_withoutNil (h : Normal ty) (left : ty.withoutNil = some value) :
    value.isNilable = false := by
  rw [Bool.eq_false_iff, ne_eq, isNilable_iff_mem (normal_withoutNil h left),
    unionMembers_withoutNil h left, mem_nonNilMembers]
  rintro ⟨-, notNil⟩
  exact notNil rfl

end FunctionApp.TypeExpr
