import FunctionApp.Program.Types
import FunctionApp.Proofs.TypeExpr.Normal

/-!
# Types of plain data, given some names

`IsDataGiven P` holds of a type if its values are plain data as long as those of the names in `P`
are. It is told member by member, also through the effective form of an intersection
(`isDataGiven_intersection`), although the names of an intersection are collected without it.
-/

namespace FunctionApp.TypeExpr

/-- All names of a list that is there satisfy a test. -/
def AllGiven (P : String → Prop) (names? : Option (List String)) : Prop :=
  ∃ names, names? = some names ∧ ∀ name ∈ names, P name

/-- The values of a type are plain data, given that those of the names in `P` are. -/
def IsDataGiven (P : String → Prop) (ty : TypeExpr) : Prop := AllGiven P ty.dataNames?

variable {P : String → Prop} {ty : TypeExpr} {types members : List TypeExpr}

theorem allGiven_nil : AllGiven P (some []) := ⟨[], rfl, by simp⟩

theorem not_allGiven_none : ¬AllGiven P none := by
  rintro ⟨names, h, -⟩
  cases h

theorem isDataGiven_named {name : String} : IsDataGiven P (.named name) ↔ P name := by
  simp [IsDataGiven, AllGiven, dataNames?]

theorem isDataGiven_array : IsDataGiven P (.array ty) ↔ IsDataGiven P ty := Iff.rfl

theorem isDataGiven_map : IsDataGiven P (.map ty) ↔ IsDataGiven P ty := Iff.rfl

theorem isDataGiven_table : IsDataGiven P (.table ty) ↔ IsDataGiven P ty := Iff.rfl

/-- The names of several types are those of each of them. -/
theorem allGiven_dataNamesOfAll? :
    AllGiven P (dataNamesOfAll? types) ↔ ∀ ty ∈ types, IsDataGiven P ty := by
  induction types with
  | nil => simpa [dataNamesOfAll?] using allGiven_nil
  | cons ty types ih =>
    rw [List.forall_mem_cons, ← ih, dataNamesOfAll?, IsDataGiven]
    cases dataNames? ty with
    | none => simp [not_allGiven_none, bind, Option.bind]
    | some first =>
      cases dataNamesOfAll? types with
      | none => simp [not_allGiven_none, bind, Option.bind]
      | some others =>
        simp only [AllGiven, bind, Option.bind, pure, Option.some.injEq, exists_eq_left',
          List.forall_mem_append]

theorem isDataGiven_tuple : IsDataGiven P (.tuple members) ↔ ∀ m ∈ members, IsDataGiven P m := by
  rw [← allGiven_dataNamesOfAll?]
  rfl

theorem isDataGiven_union : IsDataGiven P (.union members) ↔ ∀ m ∈ members, IsDataGiven P m := by
  rw [← allGiven_dataNamesOfAll?]
  rfl

/-! ## Effective forms -/

theorem isDataGiven_unionMembers :
    (∀ m ∈ ty.unionMembers, IsDataGiven P m) ↔ IsDataGiven P ty := by
  cases ty with
  | union members => exact isDataGiven_union.symm
  | _ => simp [unionMembers]

theorem isDataGiven_ofMembers :
    IsDataGiven P (ofMembers members) ↔ ∀ m ∈ members, IsDataGiven P m := by
  rw [ofMembers.eq_def]
  split
  · simp
  · exact isDataGiven_union

/-- Flattening a union and dropping its repetitions changes nothing. -/
theorem isDataGiven_unionOf : IsDataGiven P (unionOf types) ↔ ∀ ty ∈ types, IsDataGiven P ty := by
  rw [unionOf, isDataGiven_ofMembers]
  constructor
  · intro h ty ht
    refine isDataGiven_unionMembers.1 fun m hm => h m ?_
    exact mem_flattened.2 ⟨ty, ht, hm⟩
  · intro h m hm
    obtain ⟨ty, ht, hm⟩ := mem_flattened.1 hm
    exact isDataGiven_unionMembers.2 (h ty ht) m hm

mutual

/-- A type is told by its effective form: without one its values are no plain data. -/
theorem isDataGiven_effective (P : String → Prop) :
    ∀ ty : TypeExpr, IsDataGiven P ty ↔ ∃ r, effective ty = .ok r ∧ IsDataGiven P r
  | .intersection members => by
    rw [effective, IsDataGiven, dataNames?]
    exact allGiven_dataNamesOfSingle? P (.intersection members) members
  | .union members => by
    rw [isDataGiven_union, forall_isDataGiven_effective P members, effective]
    cases effectiveMembers members with
    | error whole => simp [bind, Except.bind]
    | ok parts =>
      simp only [Except.ok.injEq, exists_eq_left', bind, Except.bind, pure, Except.pure,
        isDataGiven_unionOf]
  | .builtin _ | .nil | .array _ | .map _ | .table _ | .tuple _ | .named _ => by simp [effective]

theorem allGiven_dataNamesOfSingle? (P : String → Prop) (whole : TypeExpr) :
    ∀ members : List TypeExpr, AllGiven P (dataNamesOfSingle? members) ↔
      ∃ r, effectiveOfSingle whole members = .ok r ∧ IsDataGiven P r
  | [] => by simp [dataNamesOfSingle?, effectiveOfSingle, not_allGiven_none]
  | ty :: rest => by
    rw [dataNamesOfSingle?, effectiveOfSingle]
    split
    · exact allGiven_dataNamesOfSingle? P whole rest
    · split
      · exact isDataGiven_effective P ty
      · simp [not_allGiven_none]

theorem forall_isDataGiven_effective (P : String → Prop) :
    ∀ types : List TypeExpr, (∀ ty ∈ types, IsDataGiven P ty) ↔
      ∃ parts, effectiveMembers types = .ok parts ∧ ∀ part ∈ parts, IsDataGiven P part
  | [] => by simp [effectiveMembers]
  | ty :: rest => by
    rw [List.forall_mem_cons, isDataGiven_effective P ty, forall_isDataGiven_effective P rest,
      effectiveMembers]
    cases effective ty with
    | error whole => simp [bind, Except.bind]
    | ok first =>
      cases effectiveMembers rest with
      | error whole => simp [bind, Except.bind]
      | ok parts => simp [bind, Except.bind, pure, Except.pure]

end

/-- **An intersection is told by its effective form.** -/
theorem isDataGiven_intersection :
    IsDataGiven P (.intersection members) ↔
      ∃ r, effective (.intersection members) = .ok r ∧ IsDataGiven P r :=
  isDataGiven_effective P _

/-! ## The names that are met -/

mutual

/-- The names of the data of a type stand in the type. -/
theorem dataNames?_subset : ∀ {ty : TypeExpr} {found : List String}, ty.dataNames? = some found →
    found ⊆ ty.names
  | .builtin b, found, h => by
    cases b <;> cases h <;> exact List.nil_subset _
  | .nil, found, h => by
    simp only [dataNames?, Option.some.injEq] at h
    simp [← h]
  | .named name, found, h => by
    simp only [dataNames?, Option.some.injEq] at h
    simp [← h, names]
  | .array ty, found, h | .map ty, found, h | .table ty, found, h => by
    rw [dataNames?] at h
    rw [names]
    exact dataNames?_subset h
  | .tuple members, found, h | .union members, found, h => by
    rw [dataNames?] at h
    rw [names]
    exact dataNamesOfAll?_subset h
  | .intersection members, found, h => by
    rw [dataNames?] at h
    rw [names]
    exact dataNamesOfSingle?_subset h

theorem dataNamesOfAll?_subset : ∀ {types : List TypeExpr} {found : List String},
    dataNamesOfAll? types = some found → found ⊆ namesOfAll types
  | [], found, h => by
    simp only [dataNamesOfAll?, Option.some.injEq] at h
    simp [← h]
  | ty :: rest, found, h => by
    rw [dataNamesOfAll?] at h
    obtain ⟨first, hf, h⟩ := Option.bind_eq_some_iff.1 h
    obtain ⟨others, ho, h⟩ := Option.bind_eq_some_iff.1 h
    rw [namesOfAll, ← Option.some.inj h]
    refine List.append_subset.2 ⟨?_, ?_⟩
    · exact List.Subset.trans (dataNames?_subset hf) (List.subset_append_left _ _)
    · exact List.Subset.trans (dataNamesOfAll?_subset ho) (List.subset_append_right _ _)

theorem dataNamesOfSingle?_subset : ∀ {members : List TypeExpr} {found : List String},
    dataNamesOfSingle? members = some found → found ⊆ namesOfAll members
  | [], found, h => by simp [dataNamesOfSingle?] at h
  | ty :: rest, found, h => by
    rw [dataNamesOfSingle?] at h
    rw [namesOfAll]
    split at h
    · exact List.Subset.trans (dataNamesOfSingle?_subset h) (List.subset_append_right _ _)
    · split at h
      · exact List.Subset.trans (dataNames?_subset h) (List.subset_append_left _ _)
      · cases h

end

end FunctionApp.TypeExpr
