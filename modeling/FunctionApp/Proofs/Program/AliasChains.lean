import FunctionApp.Program.Types

/-!
# Chains of aliases

A chain of aliases ends at a type that is no alias, or it never does. Following it looks each name
up at most once, which is enough: no name stands twice on a chain that ends, since its distance from
the end is always the same (`resolveAlias_of_leadsTo`). On a chain that never ends it stops at the
name of an alias (`resolveAlias_cases`).
-/

namespace FunctionApp.Program

variable {program : Program} {ty r s : TypeExpr} {name : String} {k l : Nat}
  {names all : List String}

theorem alias?_eq_some_iff : program.alias? name = some ty ↔
    program.definition? name = some (.alias ty) := by
  unfold alias?
  split
  · next body h => simp [h]
  · next h => exact iff_of_false nofun (h ty)

theorem alias?_of_record {r : RecordType} (h : program.definition? name = some (.record r)) :
    program.alias? name = none := by
  unfold alias?
  rw [h]

/-- The names of the body of an alias are among those that a search may look up. -/
theorem names_subset_of_alias? (h : program.alias? name = some ty) (start : TypeExpr) :
    ty.names ⊆ program.namesFor start := by
  have mentioned {written : String} (hl : program.types.lookup written = some (.alias ty)) :
      ty.names ⊆ program.namesFor start := by
    intro n hn
    obtain ⟨before, after, split, -⟩ := List.lookup_eq_some_iff.1 hl
    refine List.mem_append_right _ (List.mem_flatMap.2 ⟨(written, .alias ty), by simp [split], ?_⟩)
    simpa [TypeDefinition.parts, TypeExpr.namesOfAll] using hn
  rcases Option.or_eq_some_iff.1 (alias?_eq_some_iff.1 h) with hl | ⟨-, hl⟩
  · exact mentioned hl
  · obtain ⟨_, -, hl⟩ := Option.bind_eq_some_iff.1 hl
    exact mentioned hl

theorem names_subset_namesFor (program : Program) (ty : TypeExpr) :
    ty.names ⊆ program.namesFor ty :=
  List.subset_append_left _ _

/-! ## Searches through aliases -/

/-- Of all names that a search meets on its way to an end, those that it looks up no more lie
farther away from the end than where it stands. -/
def LeftBehind (distance : Nat → TypeExpr → Prop) (all names : List String) (k : Nat) : Prop :=
  ∀ n ∈ all, n ∉ names → ∃ l > k, distance l (.named n)

namespace LeftBehind

variable {distance : Nat → TypeExpr → Prop}

theorem start : LeftBehind distance all all k := fun _ mem gone => absurd mem gone

/-- The name that the search stands at is still to be looked up, as it has one distance only. -/
theorem fresh (behind : LeftBehind distance all names k) (known : name ∈ all)
    (unique : ∀ {l}, distance l (.named name) → k = l) : name ∈ names := by
  refine Decidable.byContradiction fun gone => ?_
  obtain ⟨l, farther, there⟩ := behind name known gone
  exact Nat.ne_of_lt farther (unique there)

theorem drop (behind : LeftBehind distance all names (k + 1))
    (here : distance (k + 1) (.named name)) :
    LeftBehind distance all (dropName name names) k := by
  intro n known gone
  by_cases e : n = name
  · exact ⟨k + 1, Nat.lt_succ_self k, e ▸ here⟩
  · obtain ⟨l, farther, there⟩ := behind n known fun mem =>
      gone (List.mem_filter.2 ⟨mem, by simpa⟩)
    exact ⟨l, Nat.lt_of_succ_lt farther, there⟩

end LeftBehind

/-! ## Chains that end -/

/-- A chain of a number of aliases leads from a type to `r`, which is no alias. -/
inductive LeadsTo (program : Program) (r : TypeExpr) : Nat → TypeExpr → Prop where
  | stop : (∀ name, r = .named name → program.alias? name = none) → LeadsTo program r 0 r
  | behind {name : String} {k : Nat} {ty : TypeExpr} :
      program.alias? name = some ty → LeadsTo program r k ty →
      LeadsTo program r (k + 1) (.named name)

namespace LeadsTo

theorem of_alias? (h : LeadsTo program r k (.named name)) (ha : program.alias? name = some ty) :
    ∃ l, LeadsTo program r l ty := by
  cases h with
  | stop last => cases (last name rfl).symm.trans ha
  | behind hb h => exact ⟨_, Option.some.inj (hb.symm.trans ha) ▸ h⟩

/-- There is one end, at one distance. -/
theorem unique (hk : LeadsTo program r k ty) (hl : LeadsTo program s l ty) : k = l ∧ r = s := by
  induction hk generalizing l with
  | stop last =>
    cases hl with
    | stop => exact ⟨rfl, rfl⟩
    | behind ha => cases (last _ rfl).symm.trans ha
  | behind ha _ ih =>
    cases hl with
    | stop last => cases (last _ rfl).symm.trans ha
    | behind hb h =>
      obtain ⟨rfl, rfl⟩ := ih (Option.some.inj (hb.symm.trans ha) ▸ h)
      exact ⟨rfl, rfl⟩

theorem resolveAliasWithin (h : LeadsTo program r k ty) (known : ty.names ⊆ all)
    (aliases : ∀ name ty, program.alias? name = some ty → ty.names ⊆ all)
    (behind : LeftBehind (LeadsTo program r) all names k) :
    program.resolveAliasWithin names ty = r := by
  induction h generalizing names with
  | stop last =>
    unfold Program.resolveAliasWithin
    split
    · next name => simp [last name rfl]
    · rfl
  | @behind name k ty ha h ih =>
    have here : LeadsTo program r (k + 1) (.named name) := .behind ha h
    have fresh : name ∈ names :=
      behind.fresh (known (by simp [TypeExpr.names])) fun there => (here.unique there).1
    rw [Program.resolveAliasWithin, dif_pos fresh]
    simp only [ha]
    exact ih (aliases name ty ha) (behind.drop here)

end LeadsTo

/-- **A chain of aliases that ends is followed to its end.** -/
theorem resolveAlias_of_leadsTo (h : LeadsTo program r k ty) : program.resolveAlias ty = r :=
  h.resolveAliasWithin (names_subset_namesFor program ty)
    (fun _ _ ha => names_subset_of_alias? ha ty) .start

theorem LeadsTo.of_not_named (h : ∀ name, ty ≠ .named name) : LeadsTo program ty 0 ty :=
  .stop fun name hn => absurd hn (h name)

theorem resolveAlias_of_not_named (h : ∀ name, ty ≠ .named name) : program.resolveAlias ty = ty :=
  resolveAlias_of_leadsTo (.of_not_named h)

/-- Following aliases neither finds nor loses an end. -/
theorem exists_leadsTo_resolveAliasWithin (names : List String) (ty : TypeExpr) :
    (∃ k, LeadsTo program r k (program.resolveAliasWithin names ty)) ↔
      ∃ k, LeadsTo program r k ty := by
  induction names, ty using resolveAliasWithin.induct program with
  | case1 names name mem ty ha ih =>
    rw [resolveAliasWithin, dif_pos mem]
    simp only [ha]
    rw [ih]
    constructor
    · rintro ⟨k, h⟩
      exact ⟨k + 1, .behind ha h⟩
    · rintro ⟨k, h⟩
      exact h.of_alias? ha
  | case2 names name mem none =>
    rw [resolveAliasWithin, dif_pos mem]
    simp only [none]
  | case3 names name mem => rw [resolveAliasWithin, dif_neg mem]
  | case4 names ty other =>
    rw [resolveAliasWithin]
    exact other

/-- A type resolves to the end of its chain of aliases, or, where there is no end, to the name of an
alias. -/
theorem resolveAlias_cases (program : Program) (ty : TypeExpr) :
    (∃ k, LeadsTo program (program.resolveAlias ty) k ty) ∨
      ∃ name body, program.resolveAlias ty = .named name ∧ program.alias? name = some body := by
  by_cases last : ∀ name, program.resolveAlias ty = .named name → program.alias? name = none
  · exact .inl ((exists_leadsTo_resolveAliasWithin _ ty).1 ⟨0, .stop last⟩)
  · simp only [Classical.not_forall] at last
    obtain ⟨name, hr, ha⟩ := last
    obtain ⟨body, ha⟩ := Option.ne_none_iff_exists'.1 ha
    exact .inr ⟨name, body, hr, ha⟩

/-! ## Chains that never end -/

/-- A type whose chain of aliases comes to no end. -/
def IsEndless (program : Program) (ty : TypeExpr) : Prop := ∀ r k, ¬LeadsTo program r k ty

/-- On a chain without an end there is always a next alias. -/
theorem IsEndless.exists_alias? (h : IsEndless program ty) :
    ∃ name body, ty = .named name ∧ program.alias? name = some body ∧ IsEndless program body := by
  have more : ∃ name body, ty = .named name ∧ program.alias? name = some body := by
    refine Classical.byContradiction fun last => h ty 0 (.stop fun name hn => ?_)
    exact Option.eq_none_iff_forall_ne_some.2 fun body ha => last ⟨name, body, hn, ha⟩
  obtain ⟨name, body, rfl, ha⟩ := more
  exact ⟨name, body, rfl, ha, fun r k ends => h r (k + 1) (.behind ha ends)⟩

/-! ## Types with the same end -/

/-- Two types whose chains of aliases come to the same end, or to none. -/
def SameEnd (program : Program) (ty other : TypeExpr) : Prop :=
  ∀ r, (∃ k, LeadsTo program r k ty) ↔ ∃ k, LeadsTo program r k other

theorem sameEnd_of_alias? (h : program.alias? name = some ty) :
    SameEnd program (.named name) ty := by
  intro r
  constructor
  · rintro ⟨k, ends⟩
    exact ends.of_alias? h
  · rintro ⟨k, ends⟩
    exact ⟨k + 1, .behind h ends⟩

theorem sameEnd_resolveAlias (program : Program) (ty : TypeExpr) :
    SameEnd program (program.resolveAlias ty) ty :=
  fun _ => exists_leadsTo_resolveAliasWithin _ ty

namespace SameEnd

variable {other : TypeExpr}

theorem isEndless_iff (h : SameEnd program ty other) :
    IsEndless program ty ↔ IsEndless program other := by
  simp only [IsEndless, ← not_exists, h _]

/-- **Types with the same end resolve alike**: to one type, or both to the name of an alias. -/
theorem resolves (h : SameEnd program ty other) :
    program.resolveAlias ty = program.resolveAlias other ∨
      ∃ n m body next, program.resolveAlias ty = .named n ∧ program.resolveAlias other = .named m ∧
        program.alias? n = some body ∧ program.alias? m = some next := by
  rcases resolveAlias_cases program ty with ends | ⟨n, body, hn, ha⟩
  · obtain ⟨k, ends⟩ := (h _).1 ends
    exact .inl (resolveAlias_of_leadsTo ends).symm
  · rcases resolveAlias_cases program other with ends | ⟨m, next, hm, hb⟩
    · obtain ⟨k, ends⟩ := (h _).2 ends
      exact .inl (resolveAlias_of_leadsTo ends)
    · exact .inr ⟨n, m, body, next, hn, hm, ha, hb⟩

/-- No type but the name of an alias tells the ends apart. -/
theorem resolveAlias_eq_iff (h : SameEnd program ty other) {r : TypeExpr}
    (not_named : ∀ name, r ≠ .named name) :
    program.resolveAlias ty = r ↔ program.resolveAlias other = r := by
  rcases h.resolves with same | ⟨n, m, -, -, hn, hm, -, -⟩
  · rw [same]
  · rw [hn, hm]
    exact iff_of_false (not_named n).symm (not_named m).symm

end SameEnd

end FunctionApp.Program
