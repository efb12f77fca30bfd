import FunctionApp.Proofs.Program.AliasChains
import FunctionApp.Proofs.Results
import FunctionApp.Proofs.TypeExpr.Reduction

/-!
# Structured types

A type is structured if it is a collection or a record, at the end of a way through arrays, aliases
and the effective forms of intersections (`isStructured_iff_isStructuredAt`). The way passes no name
twice, so that the search for its end, which looks each name up once, does not miss it. An alias is
therefore structured if and only if its body is (`isStructured_of_alias?`), whatever circles the
aliases of the program form.
-/

namespace FunctionApp

namespace TypeExpr

variable {types members : List TypeExpr} {ty r : TypeExpr} {n : String}

/-- Whether a type is a collection, whatever its parts are. -/
def isCollection : TypeExpr → Bool
  | .map _ | .table _ | .tuple _ | .builtin .xml | .builtin .json | .builtin .anydata => true
  | _ => false

/-! ## The names of effective forms -/

theorem mem_namesOfAll : n ∈ namesOfAll types ↔ ∃ ty ∈ types, n ∈ ty.names := by
  induction types with
  | nil => simp [namesOfAll]
  | cons ty types ih => simp [namesOfAll, ih]

theorem mem_names_unionOf (h : n ∈ (unionOf types).names) : n ∈ namesOfAll types := by
  have ofMembers {members : List TypeExpr} (h : n ∈ (ofMembers members).names) :
      ∃ m ∈ members, n ∈ m.names := by
    unfold TypeExpr.ofMembers at h
    split at h
    · exact ⟨_, List.mem_singleton_self _, h⟩
    · rw [names, mem_namesOfAll] at h
      exact h
  obtain ⟨m, hm, hn⟩ := ofMembers h
  obtain ⟨ty, hty, hm⟩ := mem_flattened.1 hm
  refine mem_namesOfAll.2 ⟨ty, hty, ?_⟩
  cases ty with
  | union members =>
    rw [names]
    exact mem_namesOfAll.2 ⟨m, hm, hn⟩
  | _ => exact List.mem_singleton.1 hm ▸ hn

/-- The names of an effective form stand in the type. -/
theorem names_subset_of_effective (h : effective ty = .ok r) : r.names ⊆ ty.names := by
  refine effective_induction (P := fun ty r => r.names ⊆ ty.names) ?plain ?single ?union h
  case plain => exact fun _ _ => List.Subset.refl _
  case single =>
    intro members m r only ih n hn
    rw [names]
    exact mem_namesOfAll.2 ⟨m, mem_of_filter_eq_singleton only, ih hn⟩
  case union =>
    intro members parts ih n hn
    obtain ⟨part, hp, hn⟩ := mem_namesOfAll.1 (mem_names_unionOf hn)
    obtain ⟨m, hm, kept⟩ := exists_of_mem_forall₂ ih hp
    rw [names]
    exact mem_namesOfAll.2 ⟨m, hm, kept hn⟩

end TypeExpr

namespace Program

variable {program : Program} {ty : TypeExpr} {members : List TypeExpr} {name : String} {k l : Nat}
  {names all : List String}

/-- A type is structured by what it leads to through arrays, effective forms and a number of
aliases. -/
inductive IsStructuredAt (program : Program) : Nat → TypeExpr → Prop where
  | collection {ty : TypeExpr} : ty.isCollection = true → IsStructuredAt program 0 ty
  | bytes : IsStructuredAt program 0 (.array (.builtin .byte))
  | record {name : String} {r : RecordType} :
      program.definition? name = some (.record r) → IsStructuredAt program 0 (.named name)
  | array {element : TypeExpr} {k : Nat} :
      IsStructuredAt program k element → IsStructuredAt program k (.array element)
  | intersection {members : List TypeExpr} {ty : TypeExpr} {k : Nat} :
      TypeExpr.effective (.intersection members) = .ok ty → IsStructuredAt program k ty →
      IsStructuredAt program k (.intersection members)
  | behind {name : String} {ty : TypeExpr} {k : Nat} :
      program.alias? name = some ty → IsStructuredAt program k ty →
      IsStructuredAt program (k + 1) (.named name)

namespace IsStructuredAt

theorem not_byte : ¬IsStructuredAt program k (.builtin .byte) := by
  rintro ⟨⟨⟩⟩

theorem not_union : ¬IsStructuredAt program k (.union members) := by
  rintro ⟨⟨⟩⟩

/-- The number of aliases is always the same. -/
theorem unique (hk : IsStructuredAt program k ty) (hl : IsStructuredAt program l ty) : k = l := by
  induction hk generalizing l with
  | collection hc =>
    cases hl with
    | collection => rfl
    | _ => cases hc
  | bytes =>
    cases hl with
    | collection hc => cases hc
    | bytes => rfl
    | array h => exact absurd h not_byte
  | record hd =>
    cases hl with
    | collection hc => cases hc
    | record => rfl
    | behind ha => cases (alias?_of_record hd).symm.trans ha
  | array he ih =>
    cases hl with
    | collection hc => cases hc
    | bytes => exact absurd he not_byte
    | array h => exact ih h
  | intersection he _ ih =>
    cases hl with
    | collection hc => cases hc
    | intersection hf h => exact ih (Except.ok.inj (hf.symm.trans he) ▸ h)
  | behind ha _ ih =>
    cases hl with
    | collection hc => cases hc
    | record hd => cases (alias?_of_record hd).symm.trans ha
    | behind hb h => rw [ih (Option.some.inj (hb.symm.trans ha) ▸ h)]

/-- The search finds a structured type. -/
theorem isStructuredWithin (h : IsStructuredAt program k ty) (known : ty.names ⊆ all)
    (aliases : ∀ name ty, program.alias? name = some ty → ty.names ⊆ all)
    (behind : LeftBehind (IsStructuredAt program) all names k) :
    program.isStructuredWithin names ty = true := by
  induction h generalizing names with
  | @collection ty hc =>
    cases ty with
    | map | table | tuple => rw [Program.isStructuredWithin]
    | builtin b =>
      cases b with
      | xml | json | anydata => rw [Program.isStructuredWithin]
      | _ => cases hc
    | _ => cases hc
  | bytes =>
    rw [Program.isStructuredWithin]
    rfl
  | @record name r hd =>
    have fresh : name ∈ names :=
      behind.fresh (known (by simp [TypeExpr.names])) (IsStructuredAt.record hd).unique
    rw [Program.isStructuredWithin, dif_pos fresh, hd]
  | @array element k he ih =>
    rw [Program.isStructuredWithin, ih known behind, Bool.or_true]
  | @intersection members ty k he h ih =>
    rw [Program.isStructuredWithin]
    split
    · next found hf =>
      obtain rfl := Except.ok.inj (he.symm.trans hf)
      exact ih (List.Subset.trans (TypeExpr.names_subset_of_effective he) known) behind
    · next hf => cases he.symm.trans hf
  | @behind name ty k ha h ih =>
    have here : IsStructuredAt program (k + 1) (.named name) := .behind ha h
    have fresh : name ∈ names := behind.fresh (known (by simp [TypeExpr.names])) here.unique
    rw [Program.isStructuredWithin, dif_pos fresh, alias?_eq_some_iff.1 ha]
    exact ih (aliases name ty ha) (behind.drop here)

end IsStructuredAt

/-- What the search finds is structured. -/
theorem isStructuredAt_of_isStructuredWithin (h : program.isStructuredWithin names ty = true) :
    ∃ k, IsStructuredAt program k ty := by
  induction names, ty using isStructuredWithin.induct program with
  | case1 | case2 | case3 | case4 | case5 | case6 => exact ⟨0, .collection rfl⟩
  | case7 names element ih =>
    rw [isStructuredWithin, Bool.or_eq_true_iff] at h
    rcases h with bytes | h
    · exact ⟨0, eq_of_beq bytes ▸ .bytes⟩
    · obtain ⟨k, he⟩ := ih h
      exact ⟨k, .array he⟩
  | case8 names members ty he ih =>
    rw [isStructuredWithin] at h
    split at h
    · next found hf =>
      obtain rfl := Except.ok.inj (he.symm.trans hf)
      obtain ⟨k, ht⟩ := ih h
      exact ⟨k, .intersection he ht⟩
    · cases h
  | case9 names members e he =>
    rw [isStructuredWithin] at h
    split at h
    · next hf => cases he.symm.trans hf
    · cases h
  | case10 names name mem r hd => exact ⟨0, .record hd⟩
  | case11 names name mem ty hd ih =>
    rw [isStructuredWithin, dif_pos mem, hd] at h
    obtain ⟨k, ht⟩ := ih h
    exact ⟨k + 1, .behind (alias?_eq_some_iff.2 hd) ht⟩
  | case12 names name mem noRecord noAlias =>
    rw [isStructuredWithin, dif_pos mem] at h
    split at h
    · next hd => exact absurd hd (noRecord _)
    · next hd => exact absurd hd (noAlias _)
    · cases h
  | case13 names name mem =>
    rw [isStructuredWithin, dif_neg mem] at h
    cases h
  | case14 names ty =>
    rw [isStructuredWithin] at h
    · cases h
    all_goals assumption

/-- **A type is structured** if and only if it leads to a collection or a record. -/
theorem isStructured_iff_isStructuredAt :
    program.isStructured ty = true ↔ ∃ k, IsStructuredAt program k ty := by
  constructor
  · exact isStructuredAt_of_isStructuredWithin
  · rintro ⟨k, h⟩
    exact h.isStructuredWithin (names_subset_namesFor program ty)
      (fun _ _ ha => names_subset_of_alias? ha ty) .start

/-- An alias is structured if and only if its body is. -/
theorem isStructured_of_alias? (h : program.alias? name = some ty) :
    program.isStructured (.named name) = program.isStructured ty := by
  rw [Bool.eq_iff_iff, isStructured_iff_isStructuredAt, isStructured_iff_isStructuredAt]
  constructor
  · rintro ⟨_, here⟩
    cases here with
    | collection hc => cases hc
    | record hd => cases (alias?_of_record hd).symm.trans h
    | behind ha here => exact ⟨_, Option.some.inj (ha.symm.trans h) ▸ here⟩
  · rintro ⟨k, here⟩
    exact ⟨k + 1, .behind h here⟩

/-- A union is not structured as it stands. -/
theorem isStructured_union : program.isStructured (.union members) = false := by
  rw [Bool.eq_false_iff, Ne, isStructured_iff_isStructuredAt]
  rintro ⟨k, h⟩
  exact h.not_union

end Program

end FunctionApp
