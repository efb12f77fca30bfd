import FunctionApp.Proofs.Handler.PayloadChoice
import FunctionApp.Proofs.Program.Structured
import Mathlib.Data.List.Forall2

/-!
# The shape of a named type

The shape of a type is told by its members as they are written, and that of a name by what it leads
to, where a union is not structured whatever its members are. So an alias has the shape of its body
unless the body is a union with a structured member, and only then it may make a difference to the
roles of the parameters (`shape_of_alias`).
-/

namespace FunctionApp

variable {program : Program} {listener : Listener} {ty : TypeExpr} {name : String}

/-- Whether a type is a union with a structured member. -/
def Program.hasStructuredMember (program : Program) : TypeExpr → Bool
  | .union members => members.any program.isStructured
  | _ => false

theorem Program.isStructured_nil : program.isStructured .nil = false := by
  rw [Bool.eq_false_iff, Ne, isStructured_iff_isStructuredAt]
  rintro ⟨_, ⟨⟨⟩⟩⟩

namespace Shape

/-- A type without members is structured or basic, as it stands. -/
theorem of_of_not_isUnion (h : ty.isUnion = false) :
    Shape.of program ty = if program.isStructured ty then .structured else .basic := by
  cases ty with
  | union => cases h
  | nil => simp [Shape.of, TypeExpr.nonNilMembers, Program.isStructured_nil]
  | _ => cases hs : program.isStructured _ <;> simp [Shape.of, TypeExpr.nonNilMembers, hs]

theorem of_eq_basic_iff :
    Shape.of program ty = .basic ↔ ty.nonNilMembers.any program.isStructured = false := by
  unfold Shape.of
  cases found : ty.nonNilMembers.any program.isStructured with
  | false => simp only [found, Bool.not_false, if_true]
  | true =>
    cases all : ty.nonNilMembers.all program.isStructured <;> simp only [found, all] <;> simp

/-- A union is basic if and only if none of its members is structured. -/
theorem of_union_eq_basic_iff {members : List TypeExpr} :
    Shape.of program (.union members) = .basic ↔
      program.hasStructuredMember (.union members) = false := by
  rw [of_eq_basic_iff, TypeExpr.nonNilMembers, Program.hasStructuredMember, List.any_filter]
  have absent (m : TypeExpr) : (!m.isNil && program.isStructured m) = program.isStructured m := by
    cases m with
    | nil => simp [Program.isStructured_nil]
    | _ => rfl
  simp only [absent]

/-- An alias has the shape of its body, unless the body is a union with a structured member. -/
theorem of_alias_eq_iff (h : program.alias? name = some ty) :
    Shape.of program (.named name) = Shape.of program ty ↔
      program.hasStructuredMember ty = false := by
  rw [of_of_not_isUnion rfl, Program.isStructured_of_alias? h]
  cases hu : ty.isUnion with
  | false =>
    rw [of_of_not_isUnion hu]
    cases ty with
    | union => cases hu
    | _ => simp [Program.hasStructuredMember]
  | true =>
    cases ty with
    | union members =>
      rw [Program.isStructured_union, ← of_union_eq_basic_iff]
      exact eq_comm
    | _ => cases hu

end Shape

/-! ## Parameters that are told apart by their types only -/

/-- Two parameters whose roles are assigned alike: they differ in their types at most, and not in
their shapes where these matter. -/
structure Candidate.Alike (program : Program) (listener : Listener) (c d : Candidate) : Prop where
  name : c.name = d.name
  explicit : c.explicit = d.explicit
  type : c.type = d.type ∨ c.explicit.isSome ∨ listener ≠ .http ∨
    Shape.of program c.type = Shape.of program d.type ∧ Shape.of program c.type ≠ .mixed

theorem Candidate.Alike.refl (c : Candidate) : c.Alike program listener c := ⟨rfl, rfl, .inl rfl⟩

namespace RoleAssignment

open List

variable {cs ds : List Candidate} {c d : Candidate}

theorem claim_congr (names : cs.map (·.name) = ds.map (·.name)) (index : Nat)
    (a : RoleAssignment) : a.claim cs index = a.claim ds index := by
  have same (i : Nat) : cs[i]?.map (·.name) = ds[i]?.map (·.name) := by
    rw [← List.getElem?_map, ← List.getElem?_map, names]
  unfold claim
  simp only [same]

theorem findIdxs_congr (h : Forall₂ (Candidate.Alike program listener) cs ds) (start : Nat) :
    cs.findIdxs (·.isMarkedPayload) start = ds.findIdxs (·.isMarkedPayload) start := by
  induction h generalizing start with
  | nil => rfl
  | cons first _ ih =>
    rw [findIdxs_cons, findIdxs_cons, ih, Candidate.isMarkedPayload, first.explicit]
    rfl

theorem claimExplicit_congr (h : Forall₂ (Candidate.Alike program listener) cs ds)
    (names : cs.map (·.name) = ds.map (·.name)) : claimExplicit cs = claimExplicit ds := by
  rw [claimExplicit_eq, claimExplicit_eq, findIdxs_congr h]
  simp only [claim_congr names]

theorem assign_congr (h : c.Alike program listener d) (names : cs.map (·.name) = ds.map (·.name))
    (a : RoleAssignment) (index : Nat) :
    a.assign program listener cs c index = a.assign program listener ds d index := by
  unfold assign
  rw [← h.explicit]
  cases he : c.explicit with
  | some role => rfl
  | none =>
    by_cases http : listener = .http
    · rw [if_neg (not_not_intro http), if_neg (not_not_intro http)]
      rcases h.type with same | marked | other | ⟨shape, pure_⟩
      · rw [h.name, same, claim_congr names]
      · rw [he] at marked
        cases marked
      · exact absurd http other
      · rw [← shape]
        cases hs : Shape.of program c.type with
        | mixed => exact absurd hs pure_
        | basic => rfl
        | structured => rw [claim_congr names]
    · rw [if_pos http, if_pos http, claim_congr names]

theorem foldl_assign_congr {all others : List Candidate}
    (names : all.map (·.name) = others.map (·.name))
    (h : Forall₂ (Candidate.Alike program listener) cs ds) (start : Nat) (a : RoleAssignment) :
    (cs.zipIdx start).foldl (fun a (c, i) => a.assign program listener all c i) a =
      (ds.zipIdx start).foldl (fun a (d, i) => a.assign program listener others d i) a := by
  induction h generalizing start a with
  | nil => rfl
  | cons first _ ih =>
    simp only [zipIdx_cons, foldl_cons, assign_congr first names, ih]

end RoleAssignment

/-- **Roles are assigned alike to parameters that are alike.** -/
theorem assignRoles_alike {cs ds : List Candidate}
    (h : List.Forall₂ (Candidate.Alike program listener) cs ds) :
    assignRoles program listener cs = assignRoles program listener ds := by
  have names : cs.map (·.name) = ds.map (·.name) := by
    induction h with
    | nil => rfl
    | cons first _ ih => rw [List.map_cons, List.map_cons, first.name, ih]
  unfold assignRoles
  rw [RoleAssignment.claimExplicit_congr h names, RoleAssignment.foldl_assign_congr names h]

theorem Shape.of_alias (h : program.alias? name = some ty) :
    Shape.of program (.named name) = if program.isStructured ty then .structured else .basic := by
  rw [of_of_not_isUnion rfl, Program.isStructured_of_alias? h]

/-- The roles are the same for a parameter that is declared with an alias or with its body, unless
its shape makes its role and the body is a union with a structured member. -/
theorem assignRoles_of_alias_iff (h : program.alias? name = some ty) (param : String)
    (explicit : Option Role) (before after : List Candidate) :
    assignRoles program listener (before ++ ⟨param, .named name, explicit⟩ :: after) =
        assignRoles program listener (before ++ ⟨param, ty, explicit⟩ :: after) ↔
      explicit.isSome = true ∨ listener ≠ .http ∨ program.hasStructuredMember ty = false := by
  have shape := Shape.of_alias h
  constructor
  · intro same
    cases explicit with
    | some role => exact .inl rfl
    | none =>
      by_cases http : listener = .http
      · refine .inr (.inr ?_)
        -- The role is a matter of whether the shape is basic.
        have roles := congrArg RoleAssignment.roles same
        rw [roles_assignRoles, roles_assignRoles, List.map_append, List.map_append, List.map_cons,
          List.map_cons] at roles
        have role := (List.cons.inj (List.append_cancel_left roles)).1
        cases ty with
        | union members =>
          rw [Program.isStructured_union] at shape
          rw [← Shape.of_union_eq_basic_iff]
          simpa [roleOf, http, shape] using role
        | _ => rfl
      · exact .inr (.inl http)
  · intro alike
    refine assignRoles_alike (List.rel_append (List.forall₂_same.2 fun c _ => .refl c)
      (.cons ⟨rfl, rfl, .inr ?_⟩ (List.forall₂_same.2 fun c _ => .refl c)))
    refine alike.imp_right fun rest => rest.imp_right fun noUnion => ?_
    refine ⟨(Shape.of_alias_eq_iff h).2 noUnion, ?_⟩
    rw [shape]
    split <;> exact Shape.noConfusion

/-- **Naming a type keeps its shape, except that of a union with a structured member.** An alias is
structured or basic as its body is, where a union is basic. It has the shape of its body if and only
if the body is no union with a structured member, and then the roles of the parameters and the
problems with them are the same whether one of them is declared with the alias or with its body. In
the other case they are so only if an annotation gives the role or the trigger is not HTTP. -/
theorem shape_of_alias (h : program.alias? name = some ty) :
    Shape.of program (.named name) =
        (if program.isStructured ty then .structured else .basic) ∧
    (Shape.of program (.named name) = Shape.of program ty ↔
      program.hasStructuredMember ty = false) ∧
    ∀ listener param explicit before after,
      assignRoles program listener (before ++ ⟨param, .named name, explicit⟩ :: after) =
          assignRoles program listener (before ++ ⟨param, ty, explicit⟩ :: after) ↔
        explicit.isSome = true ∨ listener ≠ .http ∨ program.hasStructuredMember ty = false :=
  ⟨Shape.of_alias h, Shape.of_alias_eq_iff h, fun _ => assignRoles_of_alias_iff h⟩

/-- A program with a record, an array of them and an optional one under names of their own. -/
def peopleProgram : Program where
  name := "app"
  types := [("Person", .record ⟨[("name", .builtin .string)], none⟩),
    ("People", .alias (.array (.named "Person"))),
    ("MaybePerson", .alias (.union [.named "Person", .nil]))]
  errors := []
  documents := []

theorem shape_of_alias_people :
    peopleProgram.alias? "People" = some (.array (.named "Person")) ∧
      Shape.of peopleProgram (.named "People") =
        Shape.of peopleProgram (.array (.named "Person")) ∧
      assignRoles peopleProgram .http [⟨"people", .named "People", none⟩] =
        assignRoles peopleProgram .http [⟨"people", .array (.named "Person"), none⟩] := by
  have body : peopleProgram.alias? "People" = some (.array (.named "Person")) := by decide +kernel
  obtain ⟨-, shape, roles⟩ := shape_of_alias body
  exact ⟨body, shape.2 rfl, (roles .http "people" none [] []).2 (.inr (.inr rfl))⟩

/-- A name for an optional record that no alias leads back to: the record is taken from the body of
the request, and under its name from the query. -/
theorem shape_of_maybePerson :
    peopleProgram.alias? "MaybePerson" = some (.union [.named "Person", .nil]) ∧
      peopleProgram.LeadsTo (.union [.named "Person", .nil]) 1 (.named "MaybePerson") ∧
      Shape.of peopleProgram (.named "MaybePerson") = .basic ∧
      Shape.of peopleProgram (.union [.named "Person", .nil]) = .structured ∧
      (assignRoles peopleProgram .http [⟨"person", .named "MaybePerson", none⟩]).roles =
        [.query] ∧
      (assignRoles peopleProgram .http [⟨"person", .union [.named "Person", .nil], none⟩]).roles =
        [.payload] := by
  have body : peopleProgram.alias? "MaybePerson" = some (.union [.named "Person", .nil]) := by
    decide +kernel
  have person : peopleProgram.isStructured (.named "Person") = true := by
    have record : peopleProgram.definition? "Person" =
        some (.record ⟨[("name", .builtin .string)], none⟩) := by decide +kernel
    exact Program.isStructured_iff_isStructuredAt.2 ⟨0, .record record⟩
  have named : Shape.of peopleProgram (.named "MaybePerson") = .basic := by
    rw [Shape.of_of_not_isUnion rfl, Program.isStructured_of_alias? body,
      Program.isStructured_union]
    rfl
  have written : Shape.of peopleProgram (.union [.named "Person", .nil]) = .structured := by
    simp [Shape.of, TypeExpr.nonNilMembers, TypeExpr.isNil, person]
  refine ⟨body, .behind body (.of_not_named (by simp)), named, written, ?_, ?_⟩
  · rw [roles_assignRoles]
    simp [roleOf, named]
  · rw [roles_assignRoles]
    simp [roleOf, written]

end FunctionApp
