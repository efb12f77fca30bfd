import FunctionApp.Proofs.Program.Aliases
import Mathlib.Logic.Relation

/-!
# Circles of aliases

The search for the type behind a chain of aliases keeps the names that it has looked up, and stops at
what is no alias or at the first name that it meets again (`Finds`). It ends after at most as many
aliases as there are names, with the type that `resolveAlias` gives. A name that it meets again
stands on a circle, and a search that starts there goes round once and comes back to it, because on
the way the distance to that name only drops. So resolving a type twice is resolving it once
(`aliases_resolved`).
-/

namespace FunctionApp.Program

variable {program : Program} {ty r s : TypeExpr} {name goal next : String} {k l : Nat}
  {seen all : List String}

/-! ## The search and its end -/

/-- From a type the search finds `r` behind a number of aliases, where it has seen some names. -/
inductive Finds (program : Program) : List String → Nat → TypeExpr → TypeExpr → Prop where
  | other {seen : List String} {ty : TypeExpr} :
      (∀ name, ty ≠ .named name) → Finds program seen 0 ty ty
  | again {seen : List String} {name : String} :
      name ∈ seen → Finds program seen 0 (.named name) (.named name)
  | last {seen : List String} {name : String} :
      name ∉ seen → program.alias? name = none → Finds program seen 0 (.named name) (.named name)
  | next {seen : List String} {name : String} {k : Nat} {ty r : TypeExpr} :
      name ∉ seen → program.alias? name = some ty → Finds program (name :: seen) k ty r →
      Finds program seen (k + 1) (.named name) r

theorem Finds.unique (h : Finds program seen k ty r) (h' : Finds program seen l ty s) : r = s := by
  induction h generalizing l with
  | other noName =>
    cases h' with
    | other => rfl
    | again | last | next => exact absurd rfl (noName _)
  | again met =>
    cases h' with
    | other noName => exact absurd rfl (noName _)
    | again | last => rfl
    | next fresh => exact absurd met fresh
  | last fresh none =>
    cases h' with
    | other noName => exact absurd rfl (noName _)
    | again | last => rfl
    | next _ ha => cases none.symm.trans ha
  | next fresh ha _ ih =>
    cases h' with
    | other noName => exact absurd rfl (noName _)
    | again met => exact absurd met fresh
    | last _ none => cases none.symm.trans ha
    | next _ hb h' => exact ih (Option.some.inj (hb.symm.trans ha) ▸ h')

/-- The names that may still be looked up are those that have not been seen. -/
theorem finds_resolveAliasWithin (names : List String) (ty : TypeExpr) (known : ty.names ⊆ all)
    (aliases : ∀ name ty, program.alias? name = some ty → ty.names ⊆ all)
    (left : ∀ n, n ∈ names ↔ n ∈ all ∧ n ∉ seen) :
    ∃ k ≤ names.length, Finds program seen k ty (program.resolveAliasWithin names ty) := by
  induction names, ty using resolveAliasWithin.induct program generalizing seen with
  | case1 names name mem ty ha ih =>
    have fresh : name ∉ seen := ((left name).1 mem).2
    have left' : ∀ n, n ∈ dropName name names ↔ n ∈ all ∧ n ∉ name :: seen := by
      intro n
      rw [dropName, List.mem_filter, left, decide_eq_true_iff, List.mem_cons, not_or, and_assoc,
        and_comm (a := n ∉ seen)]
    obtain ⟨k, bound, found⟩ := ih (aliases name ty ha) left'
    have fewer := length_dropName_lt mem
    refine ⟨k + 1, by omega, ?_⟩
    rw [resolveAliasWithin, dif_pos mem]
    simp only [ha]
    exact .next fresh ha found
  | case2 names name mem none =>
    refine ⟨0, Nat.zero_le _, ?_⟩
    rw [resolveAliasWithin, dif_pos mem]
    simp only [none]
    exact .last ((left name).1 mem).2 none
  | case3 names name gone =>
    have met : name ∈ seen := by
      refine Decidable.byContradiction fun fresh => gone ?_
      exact (left name).2 ⟨known (by simp [TypeExpr.names]), fresh⟩
    refine ⟨0, Nat.zero_le _, ?_⟩
    rw [resolveAliasWithin, dif_neg gone]
    exact .again met
  | case4 names ty other =>
    refine ⟨0, Nat.zero_le _, ?_⟩
    rw [resolveAliasWithin]
    · exact .other other
    · exact other

/-- **The search ends** after at most as many aliases as there are names. -/
theorem finds_resolveAlias (program : Program) (ty : TypeExpr) :
    ∃ k ≤ (program.namesFor ty).length, Finds program [] k ty (program.resolveAlias ty) :=
  finds_resolveAliasWithin _ ty (names_subset_namesFor program ty)
    (fun _ _ ha => names_subset_of_alias? ha ty) (by simp)

theorem resolveAlias_of_finds (h : Finds program [] k ty r) : program.resolveAlias ty = r := by
  obtain ⟨l, -, found⟩ := finds_resolveAlias program ty
  exact found.unique h

/-! ## Circles -/

/-- A name is an alias of another name. -/
def RefersTo (program : Program) (name next : String) : Prop :=
  program.alias? name = some (.named next)

/-- A name whose chain of aliases comes back to it. -/
def IsOnCircle (program : Program) (name : String) : Prop :=
  Relation.TransGen program.RefersTo name name

/-- A search stops at what is no alias, or at a name that leads back to itself. -/
theorem Finds.stops (h : Finds program seen k ty r)
    (path : ∀ n ∈ seen, ∀ name, ty = .named name → Relation.TransGen program.RefersTo n name) :
    (∀ name, r = .named name → program.alias? name = none) ∨
      ∃ name, r = .named name ∧ program.IsOnCircle name := by
  induction h with
  | other noName => exact .inl fun name hn => absurd hn (noName name)
  | @again _ name met => exact .inr ⟨name, rfl, path name met name rfl⟩
  | last _ none =>
    refine .inl fun n hn => ?_
    obtain rfl := TypeExpr.named.inj hn
    exact none
  | @next seen name _ ty _ _ ha _ ih =>
    apply ih
    intro n mem m hm
    have step : program.RefersTo name m := by rw [RefersTo, ha, hm]
    rcases List.mem_cons.1 mem with rfl | mem
    · exact .single step
    · exact (path n mem name rfl).tail step

/-- A name comes to another one by a number of aliases, for the first time. -/
inductive ComesTo (program : Program) (goal : String) : Nat → String → Prop where
  | here : ComesTo program goal 0 goal
  | next {name next : String} {k : Nat} : name ≠ goal → program.RefersTo name next →
      ComesTo program goal k next → ComesTo program goal (k + 1) name

namespace ComesTo

/-- There is one distance from a name to another one. -/
theorem unique (hk : ComesTo program goal k name) (hl : ComesTo program goal l name) : k = l := by
  induction hk generalizing l with
  | here =>
    cases hl with
    | here => rfl
    | next away => exact absurd rfl away
  | next away step _ ih =>
    cases hl with
    | here => exact absurd rfl away
    | next _ step' hl =>
      have same := TypeExpr.named.inj (Option.some.inj (step'.symm.trans step))
      rw [ih (same ▸ hl)]

theorem of_reflTransGen (h : Relation.ReflTransGen program.RefersTo name goal) :
    ∃ k, ComesTo program goal k name := by
  induction h using Relation.ReflTransGen.head_induction_on with
  | refl => exact ⟨0, .here⟩
  | @head name next step _ ih =>
    by_cases there : name = goal
    · exact ⟨0, there ▸ .here⟩
    · obtain ⟨k, comes⟩ := ih
      exact ⟨k + 1, .next there step comes⟩

/-- A search that has seen a name comes back to it, if all other names that it has seen are farther
away from it than where it stands. -/
theorem finds (h : ComesTo program goal k name) (passed : goal ∈ seen)
    (farther : ∀ n ∈ seen, n ≠ goal → ∃ l > k, ComesTo program goal l n) :
    Finds program seen k (.named name) (.named goal) := by
  induction h generalizing seen with
  | here => exact .again passed
  | @next name next k away step comes ih =>
    have stands : ComesTo program goal (k + 1) name := .next away step comes
    have fresh : name ∉ seen := by
      intro met
      obtain ⟨l, more, there⟩ := farther name met away
      have same := stands.unique there
      omega
    refine .next fresh step (ih (.tail _ passed) ?_)
    intro n mem other
    rcases List.mem_cons.1 mem with rfl | mem
    · exact ⟨k + 1, Nat.lt_succ_self k, stands⟩
    · obtain ⟨l, more, there⟩ := farther n mem other
      exact ⟨l, by omega, there⟩

end ComesTo

/-- **A name on a circle is resolved to itself.** -/
theorem resolveAlias_of_isOnCircle (h : program.IsOnCircle name) :
    program.resolveAlias (.named name) = .named name := by
  obtain ⟨next, step, back⟩ := Relation.TransGen.head'_iff.1 h
  obtain ⟨k, comes⟩ := ComesTo.of_reflTransGen back
  have round : Finds program [name] k (.named next) (.named name) := by
    apply comes.finds (List.mem_singleton_self name)
    intro n mem other
    exact absurd (List.mem_singleton.1 mem) other
  exact resolveAlias_of_finds (.next List.not_mem_nil step round)

/-- A type resolves to what is no alias, or to a name on a circle of aliases. -/
theorem resolveAlias_stops (program : Program) (ty : TypeExpr) :
    (∀ name, program.resolveAlias ty = .named name → program.alias? name = none) ∨
      ∃ name, program.resolveAlias ty = .named name ∧ program.IsOnCircle name := by
  obtain ⟨k, -, found⟩ := finds_resolveAlias program ty
  exact found.stops (by simp)

theorem resolveAlias_resolveAlias (program : Program) (ty : TypeExpr) :
    program.resolveAlias (program.resolveAlias ty) = program.resolveAlias ty := by
  rcases resolveAlias_stops program ty with last | ⟨name, stopped, circle⟩
  · exact resolveAlias_of_leadsTo (.stop last)
  · rw [stopped]
    exact resolveAlias_of_isOnCircle circle

/-- **Aliases are resolved in every program**, however they refer to each other. The search for what
a type stands for ends after at most as many aliases as there are names, with one type: it is no
name, the name of no alias, or a name on a circle of aliases. Resolving it again changes nothing, and
it has the record of the type that it stands for. -/
theorem aliases_resolved (program : Program) (ty : TypeExpr) :
    (∃ k ≤ (program.namesFor ty).length, Finds program [] k ty (program.resolveAlias ty)) ∧
    (∀ r, (∃ k, Finds program [] k ty r) ↔ r = program.resolveAlias ty) ∧
    ((∀ name, program.resolveAlias ty ≠ .named name) ∨
      (∃ name, program.resolveAlias ty = .named name ∧ program.alias? name = none) ∨
      ∃ name, program.resolveAlias ty = .named name ∧ program.IsOnCircle name) ∧
    program.resolveAlias (program.resolveAlias ty) = program.resolveAlias ty ∧
    program.recordType? ty = program.recordType? (program.resolveAlias ty) := by
  have ended := finds_resolveAlias program ty
  refine ⟨ended, fun r => ?_, ?_, resolveAlias_resolveAlias program ty, recordType?_resolveAlias.symm⟩
  · constructor
    · rintro ⟨k, found⟩
      exact (resolveAlias_of_finds found).symm
    · rintro rfl
      obtain ⟨k, -, found⟩ := ended
      exact ⟨k, found⟩
  · rcases resolveAlias_stops program ty with last | circle
    · by_cases named : ∃ name, program.resolveAlias ty = .named name
      · obtain ⟨name, hn⟩ := named
        exact .inr (.inl ⟨name, hn, last name hn⟩)
      · exact .inl fun name hn => named ⟨name, hn⟩
    · exact .inr (.inr circle)

/-- A name that is spelled with a prefix in its own body: the spelling with the prefix is the one on
the circle. -/
example :
    let program : Program := ⟨"app", [("Loop", .alias (.named "shop:Loop"))], [], []⟩
    program.resolveAlias (.named "Loop") = .named "shop:Loop" ∧
      program.resolveAlias (.named "shop:Loop") = .named "shop:Loop" := by
  decide +kernel

end FunctionApp.Program
