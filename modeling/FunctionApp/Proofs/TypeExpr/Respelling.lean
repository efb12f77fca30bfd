import FunctionApp.Proofs.TypeExpr.Normal

/-!
# Types as their text spells them

The text of a type does not say everything about it. An intersection inside an intersection is
written without brackets, and a union of two with `()` first is written as one with `()` last. What
the text stands for is the type respelled, and a normal type is its own respelling just when neither
occurs in it (`respelled_eq_self_iff`).
-/

namespace FunctionApp.TypeExpr

def isIntersection : TypeExpr → Bool
  | .intersection _ => true
  | _ => false

mutual

/-- The type that the text of a type stands for. -/
def respelled : TypeExpr → TypeExpr
  | .array ty => .array (respelled ty)
  | .map ty => .map (respelled ty)
  | .table ty => .table (respelled ty)
  | .tuple tys => .tuple (respelledAll tys)
  | .union [.nil, ty] => optional (respelled ty)
  | .union tys => unionOf (respelledAll tys)
  | .intersection tys => .intersection (respelledOperands tys)
  | ty => ty

def respelledAll : List TypeExpr → List TypeExpr
  | [] => []
  | ty :: rest => respelled ty :: respelledAll rest

/-- The operands of an intersection respelled, where an intersection among them brings its own. -/
def respelledOperands : List TypeExpr → List TypeExpr
  | [] => []
  | .intersection tys :: rest => respelledOperands tys ++ respelledOperands rest
  | ty :: rest => respelled ty :: respelledOperands rest

end

/-- What a type brings to an intersection. -/
def asOperands : TypeExpr → List TypeExpr
  | .intersection tys => respelledOperands tys
  | ty => [respelled ty]

/-- Whether members are two of which the first is `()`. -/
def isNilFirst : List TypeExpr → Bool
  | [.nil, _] => true
  | _ => false

mutual

/-- Whether the text of a type says everything about it: no intersection is an operand of another,
and `()` is never the first of two members. -/
def isFaithful : TypeExpr → Bool
  | .array ty | .map ty | .table ty => isFaithful ty
  | .tuple tys => allFaithful tys
  | .union tys => !isNilFirst tys && allFaithful tys
  | .intersection tys => tys.all (!·.isIntersection) && allFaithful tys
  | _ => true

def allFaithful : List TypeExpr → Bool
  | [] => true
  | ty :: rest => isFaithful ty && allFaithful rest

end

attribute [grind =] isIntersection respelled respelledAll respelledOperands asOperands isNilFirst
  isFaithful allFaithful

@[simp] theorem respelledAll_eq_map (tys : List TypeExpr) :
    respelledAll tys = tys.map respelled := by
  induction tys with
  | nil => rfl
  | cons ty rest ih => rw [respelledAll, ih, List.map_cons]

theorem allFaithful_iff {tys : List TypeExpr} :
    allFaithful tys = true ↔ ∀ ty ∈ tys, ty.isFaithful = true := by
  induction tys with
  | nil => simp [allFaithful]
  | cons ty rest ih => simp [allFaithful, ih]

theorem asOperands_of_not_isIntersection {ty : TypeExpr} (h : ty.isIntersection = false) :
    asOperands ty = [respelled ty] := by
  cases ty with
  | intersection tys => cases h
  | _ => rfl

theorem respelledOperands_eq_flatMap (tys : List TypeExpr) :
    respelledOperands tys = tys.flatMap asOperands := by
  induction tys with
  | nil => rfl
  | cons ty rest ih =>
    cases hi : ty.isIntersection with
    | true =>
      cases ty with
      | intersection tys => rw [respelledOperands, ih, List.flatMap_cons, asOperands]
      | _ => cases hi
    | false =>
      rw [List.flatMap_cons, asOperands_of_not_isIntersection hi, ← ih, respelledOperands]
      · rfl
      · rintro tys rfl
        cases hi

theorem not_isUnion_respelled {ty : TypeExpr} (h : ty.isUnion = false) :
    (respelled ty).isUnion = false := by
  cases ty with
  | union tys => cases h
  | _ => simp [respelled, isUnion]

theorem not_isUnion_map_respelled {tys : List TypeExpr} (h : ∀ ty ∈ tys, ty.isUnion = false) :
    ∀ ty ∈ tys.map respelled, ty.isUnion = false := by
  intro r hr
  obtain ⟨ty, ht, rfl⟩ := List.mem_map.1 hr
  exact not_isUnion_respelled (h ty ht)

theorem respelled_union_of_ne {tys : List TypeExpr} (h : isNilFirst tys = false) :
    respelled (.union tys) = unionOf (tys.map respelled) := by
  rw [respelled, respelledAll_eq_map]
  rintro ty rfl
  cases h

/-! ## The number of operands -/

theorem length_le_length_flatMap {α β : Type} {f : α → List β} {as : List α}
    (h : ∀ a ∈ as, f a ≠ []) : as.length ≤ (as.flatMap f).length := by
  induction as with
  | nil => simp
  | cons a as ih =>
    have first := List.length_pos_iff.2 (h a (.head _))
    have others := ih fun b hb => h b (.tail _ hb)
    rw [List.flatMap_cons, List.length_append, List.length_cons]
    omega

theorem length_eq_one_of_length_flatMap {α β : Type} {f : α → List β} {as : List α}
    (h : ∀ a ∈ as, f a ≠ []) (he : (as.flatMap f).length = as.length) :
    ∀ a ∈ as, (f a).length = 1 := by
  induction as with
  | nil => simp
  | cons a as ih =>
    have rest : ∀ b ∈ as, f b ≠ [] := fun b hb => h b (.tail _ hb)
    have first := List.length_pos_iff.2 (h a (.head _))
    have others := length_le_length_flatMap rest
    rw [List.flatMap_cons, List.length_append, List.length_cons] at he
    exact List.forall_mem_cons.2 ⟨by omega, ih rest (by omega)⟩

theorem asOperands_ne_nil {ty : TypeExpr} (h : Normal ty) : asOperands ty ≠ [] := by
  induction h with
  | @intersection tys hl _ ih =>
    have := length_le_length_flatMap ih
    rw [asOperands, respelledOperands_eq_flatMap]
    exact List.length_pos_iff.1 (by omega)
  | _ => simp [asOperands]

theorem length_le_length_respelledOperands {tys : List TypeExpr} (h : ∀ ty ∈ tys, Normal ty) :
    tys.length ≤ (respelledOperands tys).length := by
  rw [respelledOperands_eq_flatMap]
  exact length_le_length_flatMap fun ty hty => asOperands_ne_nil (h ty hty)

/-! ## Types that are their own respelling -/

theorem unionOf_of_nodup {types : List TypeExpr} (hl : 2 ≤ types.length) (hd : types.Nodup)
    (hu : ∀ ty ∈ types, ty.isUnion = false) : unionOf types = .union types := by
  rw [unionOf_eq_ofMembers hd hu]
  obtain _ | ⟨first, _ | ⟨second, rest⟩⟩ := types
  · cases hl
  · simp at hl
  · rfl

/-- A union with as many members as went into it has just those. -/
theorem eq_of_unionOf_eq_union {types members : List TypeExpr} (hl : types.length = members.length)
    (hu : ∀ ty ∈ types, ty.isUnion = false) (h : unionOf types = .union members) :
    types = members := by
  rw [unionOf, flatMap_unionMembers hu] at h
  have folded : types.foldl addMember [] = members := by
    generalize hf : types.foldl addMember [] = found at h
    unfold ofMembers at h
    split at h
    · next ty =>
      have : ty ∈ types := by simpa [hf] using @mem_foldl_addMember types [] ty
      have := hu ty this
      rw [h] at this
      cases this
    · exact TypeExpr.union.inj h
  rw [← folded, foldl_addMember_of_length (by rw [folded]; simpa using hl.symm), List.nil_append]

theorem map_eq_self_iff {α : Type} {f : α → α} {as : List α} :
    as.map f = as ↔ ∀ a ∈ as, f a = a := by
  simpa using List.map_eq_map_iff (f := f) (g := id) (l := as)

/-- A normal union with `()` first of two is another type when it is respelled. -/
theorem respelled_union_ne {ty : TypeExpr} (hd : [.nil, ty].Nodup) (hu : ty.isUnion = false) :
    respelled (.union [.nil, ty]) ≠ .union [.nil, ty] := by
  intro h
  rw [respelled, optional] at h
  have members : [respelled ty, .nil] = [.nil, ty] := by
    refine eq_of_unionOf_eq_union rfl ?_ h
    exact List.forall_mem_cons.2 ⟨not_isUnion_respelled hu, by simp [isUnion]⟩
  have : ty = .nil := by simpa using (List.cons.inj (List.cons.inj members).2).1.symm
  simp [this] at hd

theorem respelled_union_eq_self_iff {tys : List TypeExpr} (hl : 2 ≤ tys.length) (hd : tys.Nodup)
    (hu : ∀ ty ∈ tys, ty.isUnion = false) :
    respelled (.union tys) = .union tys ↔
      isNilFirst tys = false ∧ ∀ ty ∈ tys, respelled ty = ty := by
  cases hf : isNilFirst tys with
  | true =>
    obtain ⟨ty, rfl⟩ : ∃ ty, tys = [.nil, ty] := by
      unfold isNilFirst at hf
      split at hf
      · next ty => exact ⟨ty, rfl⟩
      · cases hf
    simpa using respelled_union_ne hd (hu ty (by simp))
  | false =>
    rw [respelled_union_of_ne hf, ← map_eq_self_iff]
    constructor
    · intro h
      exact ⟨rfl, eq_of_unionOf_eq_union (List.length_map _) (not_isUnion_map_respelled hu) h⟩
    · rintro ⟨-, h⟩
      rw [h, unionOf_of_nodup hl hd hu]

theorem respelledOperands_eq_self_iff {tys : List TypeExpr} (hn : ∀ ty ∈ tys, Normal ty) :
    respelledOperands tys = tys ↔
      (∀ ty ∈ tys, ty.isIntersection = false) ∧ ∀ ty ∈ tys, respelled ty = ty := by
  have apart (hi : ∀ ty ∈ tys, ty.isIntersection = false) :
      respelledOperands tys = tys.map respelled := by
    rw [respelledOperands_eq_flatMap, List.map_eq_flatMap]
    exact List.flatMap_congr fun ty hty => asOperands_of_not_isIntersection (hi ty hty)
  constructor
  · intro h
    have single : ∀ ty ∈ tys, (asOperands ty).length = 1 := by
      refine length_eq_one_of_length_flatMap (fun ty hty => asOperands_ne_nil (hn ty hty)) ?_
      rw [← respelledOperands_eq_flatMap, h]
    have hi : ∀ ty ∈ tys, ty.isIntersection = false := by
      intro ty hty
      cases hn ty hty with
      | intersection hl hn' =>
        have short := single _ hty
        have long := length_le_length_respelledOperands hn'
        rw [asOperands] at short
        omega
      | _ => rfl
    exact ⟨hi, map_eq_self_iff.1 (by rw [← apart hi, h])⟩
  · rintro ⟨hi, h⟩
    rw [apart hi, map_eq_self_iff.2 h]

/-- **A normal type is its own respelling just when its text says everything about it.** -/
theorem respelled_eq_self_iff {ty : TypeExpr} (h : Normal ty) :
    respelled ty = ty ↔ ty.isFaithful = true := by
  have all {tys : List TypeExpr} (ih : ∀ ty ∈ tys, respelled ty = ty ↔ ty.isFaithful = true) :
      (∀ ty ∈ tys, respelled ty = ty) ↔ allFaithful tys = true := by
    rw [allFaithful_iff]
    exact forall₂_congr ih
  induction h with
  | builtin | nil | named => simp [respelled, isFaithful]
  | array _ ih | map _ ih | table _ ih => simpa [respelled, isFaithful] using ih
  | tuple _ _ ih =>
    rw [respelled, isFaithful, ← all ih, TypeExpr.tuple.injEq, respelledAll_eq_map, map_eq_self_iff]
  | union hl hd hu _ ih =>
    rw [isFaithful, respelled_union_eq_self_iff hl hd hu, all ih, Bool.and_eq_true,
      Bool.not_eq_true']
  | intersection _ hn ih =>
    rw [respelled, isFaithful, TypeExpr.intersection.injEq, respelledOperands_eq_self_iff hn, all ih,
      Bool.and_eq_true, List.all_eq_true]
    simp only [Bool.not_eq_true']

end FunctionApp.TypeExpr
