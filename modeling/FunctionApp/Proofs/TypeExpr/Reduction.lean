import FunctionApp.Proofs.TypeExpr.Respelling
import FunctionApp.TypeExpr.Size
import Mathlib.Data.List.Forall2

/-!
# Effective forms are normal forms

Where a type has an effective form is told by the intersections that are met on the way to it
(`Reaches`), and the form is made of distinct types that are neither unions nor intersections
(`IsReduced`). Such a type is its own effective form, so that the reduction of types is a
normalisation (`effective_normalises`). What holds of the effective forms of all types is shown by
one induction for each kind of type (`effective_induction`).
-/

namespace FunctionApp.TypeExpr

variable {ty r m : TypeExpr} {types parts members : List TypeExpr}

/-! ## The steps of the reduction -/

theorem effective_of_plain (union : ty.isUnion = false) (intersection : ty.isIntersection = false) :
    effective ty = .ok ty := by
  cases ty with
  | union => cases union
  | intersection => cases intersection
  | _ => simp [effective]

theorem effectiveOfSingle_eq_ok {whole : TypeExpr} : effectiveOfSingle whole members = .ok r ↔
    ∃ m, members.filter (!·.isReadonly) = [m] ∧ effective m = .ok r := by
  induction members with
  | nil => simp [effectiveOfSingle]
  | cons ty rest ih =>
    rw [effectiveOfSingle, List.filter_cons]
    cases hr : ty.isReadonly with
    | true => simpa using ih
    | false =>
      have others : rest.all isReadonly = true ↔ rest.filter (!·.isReadonly) = [] := by
        simp [List.filter_eq_nil_iff]
      split
      · contradiction
      · split
        · next all => simp [others.1 all]
        · next more =>
          rw [others] at more
          simp [more]

/-- An intersection stands for its one member other than `readonly`. -/
theorem effective_intersection_eq_ok : effective (.intersection members) = .ok r ↔
    ∃ m, members.filter (!·.isReadonly) = [m] ∧ effective m = .ok r := by
  rw [effective]
  exact effectiveOfSingle_eq_ok

theorem effectiveMembers_eq_ok : effectiveMembers types = .ok parts ↔
    List.Forall₂ (fun ty part => effective ty = .ok part) types parts := by
  induction types generalizing parts with
  | nil =>
    rw [effectiveMembers, Except.ok.injEq, List.forall₂_nil_left_iff]
    exact eq_comm
  | cons ty rest ih =>
    rw [effectiveMembers, bind_eq_ok, List.forall₂_cons_left_iff]
    refine exists_congr fun first => ?_
    rw [bind_eq_ok]
    constructor
    · rintro ⟨hf, others, ho, h⟩
      cases h
      exact ⟨others, hf, ih.1 ho, rfl⟩
    · rintro ⟨others, hf, ho, rfl⟩
      exact ⟨hf, others, ih.2 ho, rfl⟩

/-- A union stands for the union of what its members stand for. -/
theorem effective_union_eq_ok : effective (.union members) = .ok r ↔
    ∃ parts, List.Forall₂ (fun ty part => effective ty = .ok part) members parts ∧
      unionOf parts = r := by
  rw [effective, bind_eq_ok]
  refine exists_congr fun parts => and_congr effectiveMembers_eq_ok ?_
  exact ⟨Except.ok.inj, congrArg Except.ok⟩

theorem mem_of_filter_eq_singleton {p : TypeExpr → Bool} (h : members.filter p = [m]) :
    m ∈ members :=
  List.mem_of_mem_filter (h ▸ List.mem_singleton_self m)

theorem size_lt_union (h : m ∈ members) : m.size < (TypeExpr.union members).size :=
  Nat.lt_succ_of_le (size_le_sizeAll h)

theorem size_lt_intersection (h : members.filter (!·.isReadonly) = [m]) :
    m.size < (TypeExpr.intersection members).size :=
  Nat.lt_succ_of_le (size_le_sizeAll (mem_of_filter_eq_singleton h))

/-- What holds of every type that is neither a union nor an intersection, and of an intersection and
of a union if it holds of their members, holds of every type and its effective form. -/
theorem effective_induction {P : TypeExpr → TypeExpr → Prop}
    (plain : ∀ {ty : TypeExpr}, ty.isUnion = false → ty.isIntersection = false → P ty ty)
    (single : ∀ {members : List TypeExpr} {m r : TypeExpr},
      members.filter (!·.isReadonly) = [m] → P m r → P (.intersection members) r)
    (union : ∀ {members parts : List TypeExpr},
      List.Forall₂ P members parts → P (.union members) (unionOf parts))
    (h : effective ty = .ok r) : P ty r := by
  induction hs : ty.size using Nat.strongRecOn generalizing ty r with
  | ind size ih =>
    subst hs
    cases ty with
    | intersection members =>
      obtain ⟨m, only, hm⟩ := effective_intersection_eq_ok.1 h
      exact single only (ih _ (size_lt_intersection only) hm rfl)
    | union members =>
      obtain ⟨parts, each, rfl⟩ := effective_union_eq_ok.1 h
      have kept : ∀ m ∈ members, ∀ {r : TypeExpr}, effective m = .ok r → P m r :=
        fun m hm _ he => ih _ (size_lt_union hm) he rfl
      have both := (List.forall₂_and_left members parts).2 ⟨kept, each⟩
      exact union (both.imp fun m part both => both.1 both.2)
    | _ =>
      rw [effective_of_plain rfl rfl] at h
      cases h
      exact plain rfl rfl

/-! ## Where there is an effective form -/

/-- The types that the reduction of a type meets: the type itself, and what it meets in the members
of a union and in the one member of an intersection other than `readonly`. -/
inductive Reaches : TypeExpr → TypeExpr → Prop where
  | refl (ty : TypeExpr) : Reaches ty ty
  | member {members : List TypeExpr} {m ty : TypeExpr} :
      m ∈ members → Reaches m ty → Reaches (.union members) ty
  | single {members : List TypeExpr} {m ty : TypeExpr} :
      members.filter (!·.isReadonly) = [m] → Reaches m ty → Reaches (.intersection members) ty

/-- Every intersection that the reduction of a type meets has one member other than `readonly`. -/
def IsReducible (ty : TypeExpr) : Prop :=
  ∀ members, Reaches ty (.intersection members) → (members.filter (!·.isReadonly)).length = 1

theorem isReducible_of_effective (h : effective ty = .ok r) : IsReducible ty := by
  refine effective_induction (P := fun ty _ => IsReducible ty) ?plain ?single ?union h
  case plain =>
    intro ty union intersection members reached
    cases reached with
    | refl => cases intersection
    | member => cases union
    | single => cases intersection
  case single =>
    intro members m r only ih inner reached
    cases reached with
    | refl => rw [only]; rfl
    | single only' reached =>
      rw [only, List.cons.injEq] at only'
      exact ih inner (only'.1 ▸ reached)
  case union =>
    intro members parts ih inner reached
    cases reached with
    | member mem reached =>
      obtain ⟨part, -, reducible⟩ := exists_of_mem_forall₂ ih.flip mem
      exact reducible inner reached

theorem exists_effectiveMembers (each : ∀ m ∈ members, ∃ r, effective m = .ok r) :
    ∃ parts, effectiveMembers members = .ok parts := by
  induction members with
  | nil => exact ⟨[], by rw [effectiveMembers]⟩
  | cons m rest ih =>
    obtain ⟨first, hf⟩ := each m (.head _)
    obtain ⟨others, ho⟩ := ih fun m hm => each m (.tail _ hm)
    exact ⟨first :: others, effectiveMembers_eq_ok.2 (.cons hf (effectiveMembers_eq_ok.1 ho))⟩

theorem exists_effective (h : IsReducible ty) : ∃ r, effective ty = .ok r := by
  induction hs : ty.size using Nat.strongRecOn generalizing ty with
  | ind size ih =>
    subst hs
    cases ty with
    | intersection members =>
      obtain ⟨m, only⟩ := List.length_eq_one_iff.1 (h members (.refl _))
      have reducible : IsReducible m := fun inner reached => h inner (.single only reached)
      obtain ⟨r, hr⟩ := ih _ (size_lt_intersection only) reducible rfl
      exact ⟨r, effective_intersection_eq_ok.2 ⟨m, only, hr⟩⟩
    | union members =>
      have each : ∀ m ∈ members, ∃ r, effective m = .ok r := by
        intro m hm
        have reducible : IsReducible m := fun inner reached => h inner (.member hm reached)
        exact ih _ (size_lt_union hm) reducible rfl
      obtain ⟨parts, hp⟩ := exists_effectiveMembers each
      exact ⟨unionOf parts, effective_union_eq_ok.2 ⟨parts, effectiveMembers_eq_ok.1 hp, rfl⟩⟩
    | _ => exact ⟨_, effective_of_plain rfl rfl⟩

theorem exists_effective_iff : (∃ r, effective ty = .ok r) ↔ IsReducible ty :=
  ⟨fun ⟨_, h⟩ => isReducible_of_effective h, exists_effective⟩

/-! ## Reduced types -/

/-- A type whose members are distinct and neither unions nor intersections, and that is the type of
these members: no union of a single one. -/
structure IsReduced (ty : TypeExpr) : Prop where
  whole : ofMembers ty.unionMembers = ty
  distinct : ty.unionMembers.Nodup
  plain : ∀ m ∈ ty.unionMembers, m.isUnion = false ∧ m.isIntersection = false

theorem isReduced_ofMembers (distinct : members.Nodup)
    (plain : ∀ m ∈ members, m.isUnion = false ∧ m.isIntersection = false) :
    IsReduced (ofMembers members) := by
  have own := unionMembers_ofMembers fun m hm => (plain m hm).1
  exact ⟨by rw [own], own.symm ▸ distinct, own.symm ▸ plain⟩

theorem isReduced_of_plain (union : ty.isUnion = false) (intersection : ty.isIntersection = false) :
    IsReduced ty :=
  isReduced_ofMembers (List.pairwise_singleton _ ty) (by simpa using ⟨union, intersection⟩)

/-- Because the members of the parts are no unions, one level of flattening is enough. -/
theorem isReduced_unionOf (h : ∀ part ∈ parts, IsReduced part) : IsReduced (unionOf parts) := by
  refine isReduced_ofMembers (nodup_foldl_addMember List.nodup_nil) fun m hm => ?_
  obtain ⟨part, hp, hm⟩ := mem_flattened.1 hm
  exact (h part hp).plain m hm

theorem isReduced_effective (h : effective ty = .ok r) : IsReduced r := by
  refine effective_induction (P := fun _ r => IsReduced r) ?plain ?single ?union h
  case plain => exact isReduced_of_plain
  case single => exact fun _ ih => ih
  case union =>
    intro members parts ih
    refine isReduced_unionOf fun part hp => ?_
    obtain ⟨m, -, reduced⟩ := exists_of_mem_forall₂ ih hp
    exact reduced

namespace IsReduced

theorem not_isIntersection (h : IsReduced ty) : ty.isIntersection = false := by
  cases ty with
  | intersection => cases (h.plain _ (List.mem_singleton_self _)).2
  | _ => rfl

/-- A reduced type is its own effective form. -/
theorem effective_eq (h : IsReduced ty) : effective ty = .ok ty := by
  cases hu : ty.isUnion with
  | false => exact effective_of_plain hu h.not_isIntersection
  | true =>
    cases ty with
    | union members =>
      have own : List.Forall₂ (fun m part => effective m = .ok part) members members :=
        List.forall₂_same.2 fun m hm => effective_of_plain (h.plain m hm).1 (h.plain m hm).2
      have whole := unionOf_eq_ofMembers h.distinct fun m hm => (h.plain m hm).1
      exact effective_union_eq_ok.2 ⟨members, own, whole.trans h.whole⟩
    | _ => cases hu

end IsReduced

theorem isReduced_of_normal (h : Normal ty)
    (plain : ∀ m ∈ ty.unionMembers, m.isIntersection = false) : IsReduced ty := by
  cases hu : ty.isUnion with
  | false =>
    rw [unionMembers_of_not_isUnion hu] at plain
    exact isReduced_of_plain hu (plain ty (List.mem_singleton_self ty))
  | true =>
    cases h with
    | @union tys long distinct flat =>
      have reduced := isReduced_ofMembers distinct fun m hm => ⟨flat m hm, plain m hm⟩
      rwa [← unionOf_eq_ofMembers distinct flat, unionOf_of_nodup long distinct flat] at reduced
    | _ => cases hu

/-- **The reduction of a type is a normalisation.** A type has an effective form just when every
intersection that is met on the way has one member other than `readonly`. The effective form is no
intersection, its members are distinct and neither unions nor intersections, and it is its own
effective form. A type that was read is its own effective form just when neither it nor any of its
members is an intersection. -/
theorem effective_normalises (ty : TypeExpr) :
    ((∃ r, effective ty = .ok r) ↔ IsReducible ty) ∧
    (∀ r, effective ty = .ok r →
      r.isIntersection = false ∧
      (∀ members, r = .union members →
        members.Nodup ∧ ∀ m ∈ members, m.isUnion = false ∧ m.isIntersection = false) ∧
      effective r = .ok r) ∧
    (∀ text, parse text = .ok ty →
      (effective ty = .ok ty ↔ ty.isIntersection = false ∧
        ∀ members, ty = .union members → ∀ m ∈ members, m.isIntersection = false)) := by
  refine ⟨exists_effective_iff, fun r h => ?form, fun text read => ⟨fun h => ?mp, ?mpr⟩⟩
  case form =>
    have reduced := isReduced_effective h
    refine ⟨reduced.not_isIntersection, ?_, reduced.effective_eq⟩
    rintro members rfl
    exact ⟨reduced.distinct, reduced.plain⟩
  case mp =>
    have reduced := isReduced_effective h
    refine ⟨reduced.not_isIntersection, ?_⟩
    rintro members rfl m hm
    exact (reduced.plain m hm).2
  case mpr =>
    rintro ⟨top, inside⟩
    refine IsReduced.effective_eq (isReduced_of_normal (normal_of_parse read) fun m hm => ?_)
    cases ty with
    | union members => exact inside members rfl m hm
    | _ => exact List.mem_singleton.1 hm ▸ top

theorem effective_normalises_readonly :
    ∃ ty r, parse "readonly & (A|())|int" = .ok ty ∧ effective ty = .ok r ∧
      effective r = .ok r ∧ effective ty ≠ .ok ty := by
  let both : TypeExpr := .intersection [.builtin .readonly, .union [.named "A", .nil]]
  have read : parse "readonly & (A|())|int" = .ok (.union [both, .builtin .int]) := by
    decide +kernel
  have reduced : effective (.union [both, .builtin .int]) =
      .ok (.union [.named "A", .nil, .builtin .int]) := by
    decide +kernel
  obtain ⟨-, form, own⟩ := effective_normalises (.union [both, .builtin .int])
  refine ⟨_, _, read, reduced, (form _ reduced).2.2, fun h => ?_⟩
  cases ((own _ read).1 h).2 _ rfl both (.head _)

end FunctionApp.TypeExpr
