import FunctionApp.Proofs.Program.Aliases
import FunctionApp.Proofs.Program.Anydata
import FunctionApp.Proofs.TypeExpr.Members

/-!
# Plain data, part by part

The values of a type are plain data if those of its parts are: of its members, and of the parts of the
definition of a name (`isAnydata_named`), also where definitions refer to each other in circles. So
neither aliases (`isAnydata_resolveAlias`) nor members without a value (`isAnydata_withoutNil`) make
a difference.
-/

namespace FunctionApp

open TypeExpr

namespace TypeExpr

theorem AllGiven.mono {P Q : String → Prop} {names? : Option (List String)} (h : AllGiven P names?)
    (hpq : ∀ name, P name → Q name) : AllGiven Q names? := by
  obtain ⟨names, hn, given⟩ := h
  exact ⟨names, hn, fun name hm => hpq name (given name hm)⟩

end TypeExpr

namespace Program

variable {program : Program} {ty value : TypeExpr} {types members : List TypeExpr} {name : String}

/-- The names that hold plain data are closed, and every other closed set is among them. -/
theorem isClosed_isAnydata (program : Program) :
    program.IsClosed fun name => program.isAnydata (.named name) = true := by
  intro name h
  obtain ⟨P, closed, given⟩ := isAnydata_iff_exists_closed.1 h
  refine (closed name (isDataGiven_named.1 given)).mono fun other ho => ?_
  exact isAnydata_iff_exists_closed.2 ⟨P, closed, isDataGiven_named.2 ho⟩

/-- **A type holds data if and only if it does given the names that hold data.** -/
theorem isAnydata_iff_isDataGiven :
    program.isAnydata ty = true ↔
      IsDataGiven (fun name => program.isAnydata (.named name) = true) ty := by
  constructor
  · intro h
    obtain ⟨P, closed, given⟩ := isAnydata_iff_exists_closed.1 h
    refine AllGiven.mono given fun name hn => ?_
    exact isAnydata_iff_exists_closed.2 ⟨P, closed, isDataGiven_named.2 hn⟩
  · exact fun given => isAnydata_iff_exists_closed.2 ⟨_, isClosed_isAnydata program, given⟩

theorem isAnydata_array : program.isAnydata (.array ty) = program.isAnydata ty := by
  rw [Bool.eq_iff_iff, isAnydata_iff_isDataGiven, isDataGiven_array, isAnydata_iff_isDataGiven]

theorem isAnydata_union :
    program.isAnydata (.union members) = true ↔ ∀ m ∈ members, program.isAnydata m = true := by
  rw [isAnydata_iff_isDataGiven, isDataGiven_union]
  exact forall₂_congr fun _ _ => isAnydata_iff_isDataGiven.symm

theorem isAnydata_unionOf :
    program.isAnydata (unionOf types) = true ↔ ∀ ty ∈ types, program.isAnydata ty = true := by
  rw [isAnydata_iff_isDataGiven, isDataGiven_unionOf]
  exact forall₂_congr fun _ _ => isAnydata_iff_isDataGiven.symm

theorem isAnydata_nil (program : Program) : program.isAnydata .nil = true :=
  isAnydata_iff_isDataGiven.2 allGiven_nil

theorem isAnydata_builtin {b : Builtin} (ha : b ≠ .any) (he : b ≠ .error) :
    program.isAnydata (.builtin b) = true := by
  refine isAnydata_iff_isDataGiven.2 ?_
  cases b with
  | any => exact absurd rfl ha
  | error => exact absurd rfl he
  | _ => exact allGiven_nil

/-- A name holds data if and only if it has a definition other than an object, all parts of which
hold data. -/
theorem isAnydata_named :
    program.isAnydata (.named name) = true ↔ ∃ d, program.definition? name = some d ∧ d ≠ .object ∧
      ∀ part ∈ d.parts, program.isAnydata part = true := by
  constructor
  · intro h
    obtain ⟨d, hd, defined, given⟩ := allGiven_dataParts?.1 (isClosed_isAnydata program name h)
    exact ⟨d, hd, defined, fun part hp => isAnydata_iff_isDataGiven.2 (given part hp)⟩
  · rintro ⟨d, hd, defined, parts⟩
    -- The name is closed together with all names that hold data.
    refine isAnydata_iff_exists_closed.2
      ⟨fun n => n = name ∨ program.isAnydata (.named n) = true, fun n hn => ?_,
        isDataGiven_named.2 (.inl rfl)⟩
    rcases hn with rfl | hn
    · refine AllGiven.mono (allGiven_dataParts?.2 ⟨d, hd, defined, fun part hp => ?_⟩)
        fun _ => .inr
      exact isAnydata_iff_isDataGiven.1 (parts part hp)
    · exact (isClosed_isAnydata program n hn).mono fun _ => .inr

/-! ## Aliases -/

theorem isAnydata_of_alias? (h : program.alias? name = some ty) :
    program.isAnydata (.named name) = program.isAnydata ty := by
  rw [Bool.eq_iff_iff, isAnydata_named, alias?_eq_some_iff.1 h]
  simp [TypeDefinition.parts]

theorem isAnydata_resolveAliasWithin (names : List String) (ty : TypeExpr) :
    program.isAnydata (program.resolveAliasWithin names ty) = program.isAnydata ty := by
  induction names, ty using resolveAliasWithin.induct program with
  | case1 names name mem ty hty ih =>
    rw [resolveAliasWithin, dif_pos mem, hty]
    exact ih.trans (isAnydata_of_alias? hty).symm
  | case2 names name mem none => rw [resolveAliasWithin, dif_pos mem, none]
  | case3 names name mem => rw [resolveAliasWithin, dif_neg mem]
  | case4 names ty h =>
    rw [resolveAliasWithin]
    exact h

/-- **Aliases make no difference** to whether values are plain data. -/
theorem isAnydata_resolveAlias (program : Program) (ty : TypeExpr) :
    program.isAnydata (program.resolveAlias ty) = program.isAnydata ty :=
  isAnydata_resolveAliasWithin _ ty

/-- Names that only lead to each other hold plain data, since none of them leads to anything else. -/
theorem isAnydata_of_isEndless (h : IsEndless program ty) : program.isAnydata ty = true := by
  obtain ⟨name, -, rfl, -, -⟩ := h.exists_alias?
  refine isAnydata_iff_exists_closed.2
    ⟨fun n => IsEndless program (.named n), fun n hn => ?_, isDataGiven_named.2 h⟩
  obtain ⟨_, body, e, ha, endless⟩ := hn.exists_alias?
  obtain rfl := named.inj e
  obtain ⟨next, -, rfl, -, -⟩ := endless.exists_alias?
  refine allGiven_dataParts?.2 ⟨_, alias?_eq_some_iff.1 ha, nofun, fun part hp => ?_⟩
  obtain rfl := List.mem_singleton.1 hp
  exact isDataGiven_named.2 endless

theorem SameEnd.isAnydata {other : TypeExpr} (h : SameEnd program ty other) :
    program.isAnydata ty = program.isAnydata other := by
  by_cases endless : IsEndless program ty
  · rw [isAnydata_of_isEndless endless, isAnydata_of_isEndless (h.isEndless_iff.1 endless)]
  · simp only [IsEndless, not_forall, not_not] at endless
    obtain ⟨r, k, ends⟩ := endless
    obtain ⟨l, ends'⟩ := (h r).1 ⟨k, ends⟩
    rw [← isAnydata_resolveAlias, ← isAnydata_resolveAlias program other,
      resolveAlias_of_leadsTo ends, resolveAlias_of_leadsTo ends']

/-! ## Members -/

theorem isAnydata_of_unionOf? (h : unionOf? types = some value) :
    program.isAnydata value = true ↔ ∀ ty ∈ types, program.isAnydata ty = true := by
  obtain ⟨-, rfl⟩ := unionOf?_eq_some_iff.1 h
  exact isAnydata_unionOf

/-- **The absent value makes no difference** to whether values are plain data. -/
theorem isAnydata_withoutNil (h : ty.withoutNil = some value) :
    program.isAnydata value = program.isAnydata ty := by
  rw [Bool.eq_iff_iff, isAnydata_of_unionOf? h]
  cases ty with
  | union members =>
    rw [isAnydata_union]
    refine ⟨fun rest m hm => ?_, fun all m hm => all m (List.mem_filter.1 hm).1⟩
    by_cases absent : m.isNil = true
    · obtain rfl := isNil_iff.1 absent
      exact isAnydata_nil program
    · exact rest m (List.mem_filter.2 ⟨hm, by simpa using absent⟩)
  | nil => cases h
  | _ => simp [nonNilMembers]

theorem isAnydata_of_valueBehind? (h : program.valueBehind? ty = some value) :
    program.isAnydata value = program.isAnydata ty := by
  obtain ⟨rest, hr, rfl⟩ := Option.map_eq_some_iff.1 h
  rw [isAnydata_resolveAlias, isAnydata_withoutNil hr]

end Program

end FunctionApp
