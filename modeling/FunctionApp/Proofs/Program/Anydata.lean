import FunctionApp.Proofs.TypeExpr.Data
import Mathlib.Logic.Relation

/-!
# Plain data is what nothing else can be reached from

The values of a type are plain data if and only if no type with other values can be reached from it,
through its members, through what an intersection stands for and through the definitions of names,
however these refer to each other (`isAnydata_iff_reachable`). The search looks up each name at most
once. That a name which is met again counts as data is a coinductive argument: the names that were
looked up are closed under what their definitions mention (`exists_closed_of_holdData`), and
whatever can be reached from data through a closed set of names is data
(`IsDataGiven.of_reachable`).
-/

namespace FunctionApp

open TypeExpr

namespace Program

/-- The types that a type is made of: its members, the effective form of an intersection, and the
parts of the definition of a name, which are the body of an alias or the field and rest types of a
record. -/
inductive HasPart (program : Program) : TypeExpr → TypeExpr → Prop where
  | element (ty : TypeExpr) : HasPart program (.array ty) ty
  | value (ty : TypeExpr) : HasPart program (.map ty) ty
  | row (ty : TypeExpr) : HasPart program (.table ty) ty
  | component {members : List TypeExpr} {ty : TypeExpr} :
      ty ∈ members → HasPart program (.tuple members) ty
  | alternative {members : List TypeExpr} {ty : TypeExpr} :
      ty ∈ members → HasPart program (.union members) ty
  | effective {members : List TypeExpr} {ty : TypeExpr} :
      TypeExpr.effective (.intersection members) = .ok ty →
      HasPart program (.intersection members) ty
  | body {name : String} {ty : TypeExpr} :
      program.definition? name = some (.alias ty) → HasPart program (.named name) ty
  | field {name : String} {r : RecordType} {field : String × TypeExpr} :
      program.definition? name = some (.record r) → field ∈ r.fields →
      HasPart program (.named name) field.2
  | rest {name : String} {r : RecordType} {ty : TypeExpr} :
      program.definition? name = some (.record r) → r.rest = some ty →
      HasPart program (.named name) ty

/-- A type with values that are no plain data, whatever its parts are. -/
inductive IsOpaque (program : Program) : TypeExpr → Prop where
  | any : IsOpaque program (.builtin .any)
  | error : IsOpaque program (.builtin .error)
  | object {name : String} :
      program.definition? name = some .object → IsOpaque program (.named name)
  | undefined {name : String} : program.definition? name = none → IsOpaque program (.named name)
  | irreducible {members : List TypeExpr} {whole : TypeExpr} :
      TypeExpr.effective (.intersection members) = .error whole →
      IsOpaque program (.intersection members)

variable {program : Program} {P : String → Prop} {ty part : TypeExpr} {name : String}
  {fresh names : List String}

/-! ## Closed sets of names -/

/-- Names whose definitions hold plain data, given that all of the names do. -/
def IsClosed (program : Program) (P : String → Prop) : Prop :=
  ∀ name, P name → AllGiven P (program.dataParts? name)

theorem allGiven_dataParts? :
    AllGiven P (program.dataParts? name) ↔ ∃ d, program.definition? name = some d ∧ d ≠ .object ∧
      ∀ part ∈ d.parts, IsDataGiven P part := by
  unfold dataParts?
  cases program.definition? name with
  | none => simp [not_allGiven_none]
  | some d =>
    rcases d with r | _ | ty
    · simp [allGiven_dataNamesOfAll?]
    · simp [not_allGiven_none]
    · simp [allGiven_dataNamesOfAll?]

/-- What the search has said yes to is all data if the names behind it are. -/
theorem holdData_of_closed (closed : program.IsClosed P) (h : ∀ name ∈ names, P name) :
    program.holdData fresh names = true := by
  induction fresh, names using holdData.induct program with
  | case1 fresh => rw [holdData]
  | case2 fresh name rest hf parts hp ih =>
    obtain ⟨hn, hr⟩ := List.forall_mem_cons.1 h
    obtain ⟨parts', hp', given⟩ := closed name hn
    obtain rfl := Option.some.inj (hp.symm.trans hp')
    rw [holdData, dif_pos hf]
    simp only [hp]
    exact ih (List.forall_mem_append.2 ⟨given, hr⟩)
  | case3 fresh name rest hf hp =>
    obtain ⟨parts, hp', -⟩ := closed name (h name (.head _))
    cases hp.symm.trans hp'
  | case4 fresh name rest hf ih =>
    rw [holdData, dif_neg hf]
    exact ih fun n hn => h n (.tail _ hn)

/-- The names that a search has looked up are closed, up to names that it did not have to look up.
-/
theorem exists_closed_of_holdData (h : program.holdData fresh names = true) :
    ∃ P : String → Prop, (∀ name ∈ names, name ∈ fresh → P name) ∧
      ∀ name, P name → AllGiven (fun n => n ∈ fresh → P n) (program.dataParts? name) := by
  induction fresh, names using holdData.induct program with
  | case1 fresh => exact ⟨fun _ => False, by simp, by simp⟩
  | case2 fresh name rest hf parts hp ih =>
    rw [holdData, dif_pos hf] at h
    simp only [hp] at h
    obtain ⟨P, looked, closed⟩ := ih h
    -- `name` itself is no longer fresh for what was looked up behind it
    have still {n : String} (hn : n ∈ fresh) : n = name ∨ n ∈ dropName name fresh := by
      by_cases e : n = name
      · exact .inl e
      · exact .inr (List.mem_filter.2 ⟨hn, by simpa using e⟩)
    refine ⟨fun n => n = name ∨ P n, fun n hn hfresh => ?_, fun n hn => ?_⟩
    · refine (still hfresh).imp_right fun kept => ?_
      rcases List.mem_cons.1 hn with rfl | hn
      · simp [dropName] at kept
      · exact looked n (List.mem_append_right _ hn) kept
    · rcases hn with rfl | hn
      · exact ⟨parts, hp, fun m hm hfresh =>
          (still hfresh).imp_right (looked m (List.mem_append_left _ hm))⟩
      · obtain ⟨parts, hp, given⟩ := closed n hn
        exact ⟨parts, hp, fun m hm hfresh => (still hfresh).imp_right (given m hm)⟩
  | case3 fresh name rest hf hp =>
    rw [holdData, dif_pos hf] at h
    simp [hp] at h
  | case4 fresh name rest hf ih =>
    rw [holdData, dif_neg hf] at h
    obtain ⟨P, looked, closed⟩ := ih h
    refine ⟨P, fun n hn hfresh => ?_, closed⟩
    rcases List.mem_cons.1 hn with rfl | hn
    · exact absurd hfresh hf
    · exact looked n hn hfresh

/-- A definition mentions only names that the search may look up. -/
theorem dataParts?_subset {parts : List String} (h : program.dataParts? name = some parts) :
    parts ⊆ program.namesFor ty := by
  have mentioned {written : String} {d : TypeDefinition}
      (hl : program.types.lookup written = some d) :
      namesOfAll d.parts ⊆ program.namesFor ty := by
    intro n hn
    obtain ⟨before, after, split, -⟩ := List.lookup_eq_some_iff.1 hl
    have hm : (written, d) ∈ program.types := by simp [split]
    exact List.mem_append_right _ (List.mem_flatMap.2 ⟨_, hm, hn⟩)
  have defined {d : TypeDefinition} (hd : program.definition? name = some d) :
      namesOfAll d.parts ⊆ program.namesFor ty := by
    rcases Option.or_eq_some_iff.1 hd with hl | ⟨-, hl⟩
    · exact mentioned hl
    · obtain ⟨_, -, hl⟩ := Option.bind_eq_some_iff.1 hl
      exact mentioned hl
  unfold dataParts? at h
  split at h
  · cases h
  · cases h
  · next d hd => exact List.Subset.trans (dataNamesOfAll?_subset h) (defined hd)

/-- **A type holds data if and only if it does given some closed set of names.** -/
theorem isAnydata_iff_exists_closed :
    program.isAnydata ty = true ↔ ∃ P, program.IsClosed P ∧ IsDataGiven P ty := by
  unfold isAnydata
  constructor
  · intro h
    split at h
    · next names hn =>
      obtain ⟨P, looked, closed⟩ := exists_closed_of_holdData h
      refine ⟨P, fun name hname => ?_, names, hn, fun n hm => ?_⟩
      · obtain ⟨parts, hp, given⟩ := closed name hname
        exact ⟨parts, hp, fun m hm => given m hm (dataParts?_subset hp hm)⟩
      · exact looked n hm (List.mem_append_left _ (dataNames?_subset hn hm))
    · cases h
  · rintro ⟨P, closed, names, hn, given⟩
    rw [hn]
    exact holdData_of_closed closed given

/-! ## Reachability -/

/-- What a type of data is made of is data. -/
theorem IsDataGiven.of_hasPart (closed : program.IsClosed P) (hp : program.HasPart ty part)
    (h : IsDataGiven P ty) : IsDataGiven P part := by
  have defined {name : String} {d : TypeDefinition} (hd : program.definition? name = some d)
      (h : IsDataGiven P (.named name)) : ∀ part ∈ d.parts, IsDataGiven P part := by
    obtain ⟨d', hd', -, given⟩ := allGiven_dataParts?.1 (closed name (isDataGiven_named.1 h))
    obtain rfl := Option.some.inj (hd.symm.trans hd')
    exact given
  cases hp with
  | element => exact isDataGiven_array.1 h
  | value => exact isDataGiven_map.1 h
  | row => exact isDataGiven_table.1 h
  | component hm => exact isDataGiven_tuple.1 h _ hm
  | alternative hm => exact isDataGiven_union.1 h _ hm
  | effective he =>
    obtain ⟨r, hr, given⟩ := isDataGiven_intersection.1 h
    cases he.symm.trans hr
    exact given
  | body hd => exact defined hd h _ (.head _)
  | field hd hf => exact defined hd h _ (List.mem_append_left _ (List.mem_map_of_mem hf))
  | rest hd hr => exact defined hd h _ (List.mem_append_right _ (by simp [hr]))

/-- Whatever can be reached from data is data. -/
theorem IsDataGiven.of_reachable (closed : program.IsClosed P)
    (hr : Relation.ReflTransGen program.HasPart ty part) (h : IsDataGiven P ty) :
    IsDataGiven P part := by
  induction hr with
  | refl => exact h
  | tail _ hp ih => exact IsDataGiven.of_hasPart closed hp ih

theorem not_isDataGiven_of_isOpaque (closed : program.IsClosed P) (ho : program.IsOpaque ty) :
    ¬IsDataGiven P ty := by
  intro h
  cases ho with
  | any => exact not_allGiven_none h
  | error => exact not_allGiven_none h
  | object hd =>
    obtain ⟨d, hd', hne, -⟩ := allGiven_dataParts?.1 (closed _ (isDataGiven_named.1 h))
    exact hne (Option.some.inj (hd'.symm.trans hd))
  | undefined hd =>
    obtain ⟨d, hd', -⟩ := allGiven_dataParts?.1 (closed _ (isDataGiven_named.1 h))
    cases hd.symm.trans hd'
  | irreducible he =>
    obtain ⟨r, hr, -⟩ := isDataGiven_intersection.1 h
    cases he.symm.trans hr

/-- A type from which no type with other values can be reached. -/
def IsTransparent (program : Program) (ty : TypeExpr) : Prop :=
  ∀ part, Relation.ReflTransGen program.HasPart ty part → ¬program.IsOpaque part

theorem IsTransparent.of_hasPart (h : program.IsTransparent ty) (hp : program.HasPart ty part) :
    program.IsTransparent part :=
  fun other hr => h other (.head hp hr)

/-- A transparent type holds data, given that transparent names do. -/
theorem IsTransparent.isDataGiven {ty : TypeExpr} (h : program.IsTransparent ty) :
    IsDataGiven (fun name => program.IsTransparent (.named name)) ty := by
  have apparent : ¬program.IsOpaque ty := h ty .refl
  match ty with
  | .builtin b =>
    cases b with
    | any => exact absurd .any apparent
    | error => exact absurd .error apparent
    | _ => exact allGiven_nil
  | .nil => exact allGiven_nil
  | .named name => exact isDataGiven_named.2 h
  | .array ty => exact isDataGiven_array.2 (h.of_hasPart (.element ty)).isDataGiven
  | .map ty => exact isDataGiven_map.2 (h.of_hasPart (.value ty)).isDataGiven
  | .table ty => exact isDataGiven_table.2 (h.of_hasPart (.row ty)).isDataGiven
  | .tuple members =>
    exact isDataGiven_tuple.2 fun m hm => (h.of_hasPart (.component hm)).isDataGiven
  | .union members =>
    exact isDataGiven_union.2 fun m hm => (h.of_hasPart (.alternative hm)).isDataGiven
  | .intersection members =>
    cases he : TypeExpr.effective (.intersection members) with
    | error whole => exact absurd (.irreducible he) apparent
    | ok r => exact isDataGiven_intersection.2 ⟨r, he, (h.of_hasPart (.effective he)).isDataGiven⟩
termination_by ty.size
decreasing_by
  · simp [size]
  · simp [size]
  · simp [size]
  · exact Nat.lt_succ_of_le (size_le_sizeAll hm)
  · exact Nat.lt_succ_of_le (size_le_sizeAll hm)
  · exact size_effective_lt he

theorem isClosed_isTransparent (program : Program) :
    program.IsClosed fun name => program.IsTransparent (.named name) := by
  intro name h
  refine allGiven_dataParts?.2 ?_
  have apparent : ¬program.IsOpaque (.named name) := h _ .refl
  cases hd : program.definition? name with
  | none => exact absurd (.undefined hd) apparent
  | some d =>
    refine ⟨d, rfl, fun e => apparent (.object (e ▸ hd)), fun part hp => ?_⟩
    rcases d with r | _ | ty
    · rcases List.mem_append.1 hp with hp | hp
      · obtain ⟨field, hf, rfl⟩ := List.mem_map.1 hp
        exact (h.of_hasPart (.field hd hf)).isDataGiven
      · exact (h.of_hasPart (.rest hd (Option.mem_toList.1 hp))).isDataGiven
    · cases hp
    · obtain rfl := List.mem_singleton.1 hp
      exact (h.of_hasPart (.body hd)).isDataGiven

/-- **The values of a type are plain data if and only if no type with other values can be reached
from it.** -/
theorem isAnydata_iff_reachable (program : Program) (ty : TypeExpr) :
    program.isAnydata ty = true ↔
      ∀ part, Relation.ReflTransGen program.HasPart ty part → ¬program.IsOpaque part := by
  rw [isAnydata_iff_exists_closed]
  constructor
  · rintro ⟨P, closed, given⟩ part reachable ho
    exact not_isDataGiven_of_isOpaque closed ho (IsDataGiven.of_reachable closed reachable given)
  · intro transparent
    exact ⟨_, isClosed_isTransparent program, IsTransparent.isDataGiven transparent⟩

end Program

end FunctionApp
