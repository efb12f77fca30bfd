import FunctionApp.Proofs.Handler.Payload
import Mathlib.Data.List.Basic

/-!
# At most one parameter takes the payload

The parameters that call for the payload claim it one after the other, those with an annotation
before those without one. The first of them has it, and each later one is reported, whatever stands
between them (`Tally`). How many problems there are is therefore a matter of how many parameters
claim the payload and how many are unions that are neither structured nor basic, and not of their
order (`payload_chosen`).
-/

namespace FunctionApp

namespace Candidate

/-- Whether an annotation makes a parameter the payload. -/
def isMarkedPayload (c : Candidate) : Bool := c.explicit == some .payload

/-- Whether a parameter without annotation claims the payload: any behind another listener than an
HTTP one, and those of a structured type. -/
def isImplicitPayload (program : Program) (listener : Listener) (c : Candidate) : Bool :=
  c.explicit.isNone && (listener != .http || Shape.of program c.type == .structured)

def claimsPayload (program : Program) (listener : Listener) (c : Candidate) : Bool :=
  c.isMarkedPayload || c.isImplicitPayload program listener

/-- Whether a parameter of an HTTP handler without annotation has structured and other members. -/
def isMixedPayload (program : Program) (listener : Listener) (c : Candidate) : Bool :=
  c.explicit.isNone && listener == .http && Shape.of program c.type == .mixed

variable {program : Program} {listener : Listener} {c : Candidate}

theorem not_isImplicitPayload_of_isMarkedPayload (h : c.isMarkedPayload = true) :
    c.isImplicitPayload program listener = false := by
  simp [isImplicitPayload, eq_of_beq h]

/-- The payload role is that of the parameters that claim the payload, and of the mixed unions. -/
theorem roleOf_eq_payload_iff : roleOf program listener c = .payload ↔
    c.claimsPayload program listener = true ∨ c.isMixedPayload program listener = true := by
  unfold roleOf claimsPayload isMarkedPayload isImplicitPayload isMixedPayload
  cases c.explicit with
  | some role => simp
  | none =>
    by_cases http : listener = .http
    · cases Shape.of program c.type <;> simp [http]
    · simp [http]

end Candidate

namespace Problem

def isAmbiguousPayload : Problem → Bool
  | .ambiguousPayload .. => true
  | _ => false

def isMixedUnion : Problem → Bool
  | .mixedUnion .. => true
  | _ => false

end Problem

namespace RoleAssignment

variable (program : Program) (listener : Listener) (candidates : List Candidate)

def nameAt (index : Nat) : String := (candidates[index]?.map (·.name)).getD ""

/-- What is reported of parameters that claim the payload: each but the first is ambiguous with it.
-/
def rivalErrors : List Nat → List (Nat × Problem)
  | [] => []
  | first :: rest =>
    rest.map fun i => (i, .ambiguousPayload (nameAt candidates first) (nameAt candidates i))

/-- What is reported of the mixed unions among parameters with their positions. -/
def unionErrors (cs : List (Candidate × Nat)) : List (Nat × Problem) :=
  (cs.filter (·.1.isMixedPayload program listener)).map fun (c, i) =>
    (i, .mixedUnion c.name c.type.print)

/-- What an assignment has come to after claims at some positions and problems with some unions: the
first claim has the payload, and all others are reported, as the unions are. -/
structure Tally (claims : List Nat) (unions : List (Nat × Problem)) (a : RoleAssignment) :
    Prop where
  payload : a.payload = claims.head?
  errors : a.errors.Perm (rivalErrors candidates claims ++ unions)

/-- What the assignment does with a parameter: it lets it claim the payload, reports it, or does
nothing but give it its role. -/
theorem assign_cases (a : RoleAssignment) (c : Candidate) (index : Nat) :
    (c.isImplicitPayload program listener = true ∧ c.isMixedPayload program listener = false ∧
      a.assign program listener candidates c index =
        (a.claim candidates index).addRole .payload) ∨
    (c.isImplicitPayload program listener = false ∧ c.isMixedPayload program listener = true ∧
      a.assign program listener candidates c index =
        (a.addError index (.mixedUnion c.name c.type.print)).addRole .payload) ∨
    (c.isImplicitPayload program listener = false ∧ c.isMixedPayload program listener = false ∧
      a.assign program listener candidates c index = a.addRole (roleOf program listener c)) := by
  unfold assign roleOf Candidate.isImplicitPayload Candidate.isMixedPayload
  cases c.explicit with
  | some role => simp
  | none =>
    by_cases http : listener = .http
    · cases Shape.of program c.type <;> simp [http]
    · simp [http]

namespace Tally

variable {program listener candidates}
variable {claims : List Nat} {unions : List (Nat × Problem)} {a : RoleAssignment}

theorem addRole (h : Tally candidates claims unions a) (role : Role) :
    Tally candidates claims unions (a.addRole role) :=
  ⟨h.payload, h.errors⟩

theorem addError (h : Tally candidates claims unions a) (index : Nat) (problem : Problem) :
    Tally candidates claims (unions ++ [(index, problem)]) (a.addError index problem) := by
  refine ⟨h.payload, ?_⟩
  rw [← List.append_assoc]
  exact h.errors.append_right _

/-- A further claim is the first, or is reported against the first. -/
theorem claim (h : Tally candidates claims unions a) (index : Nat) :
    Tally candidates (claims ++ [index]) unions (a.claim candidates index) := by
  have payload := h.payload
  unfold RoleAssignment.claim
  cases claims with
  | nil =>
    rw [List.head?_nil] at payload
    rw [payload]
    exact ⟨rfl, h.errors⟩
  | cons first rest =>
    rw [List.head?_cons] at payload
    rw [payload]
    refine ⟨rfl, ?_⟩
    have grown : rivalErrors candidates (first :: rest ++ [index]) =
        rivalErrors candidates (first :: rest) ++
          [(index, .ambiguousPayload (nameAt candidates first) (nameAt candidates index))] := by
      simp [rivalErrors]
    rw [grown]
    refine (h.errors.append_right _).trans ?_
    rw [List.append_assoc, List.append_assoc]
    exact List.perm_append_comm.append_left _

theorem foldl_claim (marked : List Nat) (h : Tally candidates claims unions a) :
    Tally candidates (claims ++ marked) unions
      (marked.foldl (fun a index => a.claim candidates index) a) := by
  induction marked generalizing claims a with
  | nil => simpa using h
  | cons index marked ih => simpa using ih (h.claim index)

/-- A parameter claims the payload, is reported as a mixed union, or adds nothing but its role. -/
theorem assign (h : Tally candidates claims unions a) (c : Candidate) (index : Nat) :
    Tally candidates
      (claims ++ [c].findIdxs (·.isImplicitPayload program listener) index)
      (unions ++ unionErrors program listener [(c, index)])
      (a.assign program listener candidates c index) := by
  rcases assign_cases program listener candidates a c index with
    ⟨implicit, mixed, step⟩ | ⟨implicit, mixed, step⟩ | ⟨implicit, mixed, step⟩
  · rw [step]
    simpa [unionErrors, implicit, mixed] using (h.claim index).addRole .payload
  · rw [step]
    simpa [unionErrors, implicit, mixed] using
      (h.addError index (.mixedUnion c.name c.type.print)).addRole .payload
  · rw [step]
    simpa [unionErrors, implicit, mixed] using h.addRole (roleOf program listener c)

theorem foldl_assign (cs : List Candidate) (start : Nat) (h : Tally candidates claims unions a) :
    Tally candidates
      (claims ++ cs.findIdxs (·.isImplicitPayload program listener) start)
      (unions ++ unionErrors program listener (cs.zipIdx start))
      ((cs.zipIdx start).foldl (fun a (c, index) => a.assign program listener candidates c index)
        a) := by
  induction cs generalizing start claims unions a with
  | nil => simpa [unionErrors] using h
  | cons c cs ih =>
    have claimed : (c :: cs).findIdxs (·.isImplicitPayload program listener) start =
        [c].findIdxs (·.isImplicitPayload program listener) start ++
          cs.findIdxs (·.isImplicitPayload program listener) (start + 1) := by
      rw [← List.singleton_append, List.findIdxs_append]
      rfl
    have reported : unionErrors program listener ((c, start) :: cs.zipIdx (start + 1)) =
        unionErrors program listener [(c, start)] ++
          unionErrors program listener (cs.zipIdx (start + 1)) := by
      rw [unionErrors, ← List.singleton_append, List.filter_append, List.map_append]
      rfl
    rw [List.zipIdx_cons, List.foldl_cons, claimed, reported, ← List.append_assoc,
      ← List.append_assoc]
    exact ih (start + 1) (h.assign c start)

end Tally

/-- The parameters with the annotation of the payload claim it in their order. -/
theorem claimExplicit_eq :
    claimExplicit candidates =
      let marked := candidates.findIdxs (·.isMarkedPayload)
      marked.foldl (fun a index => a.claim candidates index) ⟨[], none, !marked.isEmpty, []⟩ := by
  have marked : (candidates.zipIdx.filter fun (c, _) => c.isMarkedPayload).map (·.2) =
      candidates.findIdxs (·.isMarkedPayload) := by
    rw [List.findIdxs_eq_filterMap_zipIdx, ← List.filterMap_eq_filter, List.map_filterMap]
    congr 1
    funext (c, i)
    cases h : c.isMarkedPayload <;> simp [h]
  rw [← marked, List.foldl_map, List.isEmpty_map]
  rfl

theorem tally_claimExplicit :
    Tally candidates (candidates.findIdxs (·.isMarkedPayload)) [] (claimExplicit candidates) := by
  have start (explicit : Bool) : Tally candidates [] [] ⟨[], none, explicit, []⟩ := ⟨rfl, .nil⟩
  rw [claimExplicit_eq]
  exact (start _).foldl_claim _

/-- The positions of the parameters that claim the payload, those with an annotation first. -/
def claimants : List Nat :=
  candidates.findIdxs (·.isMarkedPayload) ++
    candidates.findIdxs (·.isImplicitPayload program listener)

/-- **The payload and the problems of the roles**: the first claim has the payload, every other
claim and every mixed union is reported, and nothing else is. -/
theorem tally_assignRoles :
    Tally candidates (claimants program listener candidates)
      (unionErrors program listener candidates.zipIdx) (assignRoles program listener candidates) :=
  (tally_claimExplicit candidates).foldl_assign candidates 0

/-! ## How many parameters claim the payload -/

variable {program listener candidates}

theorem mem_claimants {i : Nat} : i ∈ claimants program listener candidates ↔
    ∃ c, candidates[i]? = some c ∧ c.claimsPayload program listener = true := by
  simp only [claimants, List.mem_append, List.mem_findIdxs_iff_exists_getElem_pos,
    Candidate.claimsPayload, Bool.or_eq_true_iff, List.getElem?_eq_some_iff]
  constructor
  · rintro (⟨h, hp⟩ | ⟨h, hp⟩)
    · exact ⟨_, ⟨h, rfl⟩, .inl hp⟩
    · exact ⟨_, ⟨h, rfl⟩, .inr hp⟩
  · rintro ⟨_, ⟨h, rfl⟩, hp⟩
    exact hp.imp (⟨h, ·⟩) (⟨h, ·⟩)

theorem length_claimants : (claimants program listener candidates).length =
    candidates.countP (·.claimsPayload program listener) := by
  rw [claimants, List.length_append, List.length_findIdxs, List.length_findIdxs]
  induction candidates with
  | nil => rfl
  | cons c cs ih =>
    rw [List.countP_cons, List.countP_cons, List.countP_cons, ← ih, Candidate.claimsPayload]
    cases marked : c.isMarkedPayload with
    | true =>
      rw [Candidate.not_isImplicitPayload_of_isMarkedPayload marked]
      simp
      omega
    | false =>
      simp
      omega

theorem head?_findIdxs (p : Candidate → Bool) (start : Nat) :
    (candidates.findIdxs p start).head? = (candidates.findIdx? p).map (· + start) := by
  induction candidates generalizing start with
  | nil => rfl
  | cons c cs ih =>
    rw [List.findIdxs_cons, List.findIdx?_cons]
    cases p c with
    | true => simp
    | false =>
      simp only [Bool.false_eq_true, if_false, ih, Option.map_map]
      congr 1
      funext i
      simp only [Function.comp_apply]
      omega

theorem head?_claimants : (claimants program listener candidates).head? =
    (candidates.findIdx? (·.isMarkedPayload)).or
      (candidates.findIdx? (·.isImplicitPayload program listener)) := by
  rw [claimants, List.head?_append, head?_findIdxs, head?_findIdxs]
  simp

/-! ## How many problems are reported -/

theorem length_rivalErrors (claims : List Nat) :
    (rivalErrors candidates claims).length = claims.length - 1 := by
  cases claims with
  | nil => rfl
  | cons first rest => simp [rivalErrors]

theorem length_unionErrors : (unionErrors program listener candidates.zipIdx).length =
    candidates.countP (·.isMixedPayload program listener) := by
  have positions : candidates.zipIdx.countP (·.1.isMixedPayload program listener) =
      (candidates.zipIdx.map (·.1)).countP (·.isMixedPayload program listener) := by
    rw [List.countP_map]
    rfl
  rw [unionErrors, List.length_map, ← List.countP_eq_length_filter, positions,
    List.zipIdx_map_fst]

/-- The problems of the two kinds are told apart by what they say. -/
theorem countP_rivalErrors (candidates : List Candidate) (claims : List Nat) :
    (rivalErrors candidates claims).countP (·.2.isAmbiguousPayload) =
        (rivalErrors candidates claims).length ∧
      (rivalErrors candidates claims).countP (·.2.isMixedUnion) = 0 := by
  cases claims with
  | nil => exact ⟨rfl, rfl⟩
  | cons first rest =>
    simp [rivalErrors, List.countP_map, Function.comp_def, Problem.isAmbiguousPayload,
      Problem.isMixedUnion]

theorem countP_unionErrors (program : Program) (listener : Listener)
    (cs : List (Candidate × Nat)) :
    (unionErrors program listener cs).countP (·.2.isAmbiguousPayload) = 0 ∧
      (unionErrors program listener cs).countP (·.2.isMixedUnion) =
        (unionErrors program listener cs).length := by
  simp [unionErrors, List.countP_map, Function.comp_def, Problem.isAmbiguousPayload,
    Problem.isMixedUnion]

/-- **As many claims are reported as there are beyond the first**, and every mixed union is. -/
theorem countP_errors_assignRoles (program : Program) (listener : Listener)
    (candidates : List Candidate) :
    (assignRoles program listener candidates).errors.countP (·.2.isAmbiguousPayload) =
        candidates.countP (·.claimsPayload program listener) - 1 ∧
      (assignRoles program listener candidates).errors.countP (·.2.isMixedUnion) =
        candidates.countP (·.isMixedPayload program listener) ∧
      (assignRoles program listener candidates).errors.length =
        candidates.countP (·.claimsPayload program listener) - 1 +
          candidates.countP (·.isMixedPayload program listener) := by
  have tally := (tally_assignRoles program listener candidates).errors
  obtain ⟨rivals, noUnions⟩ := countP_rivalErrors candidates
    (claimants program listener candidates)
  obtain ⟨noRivals, unions⟩ := countP_unionErrors program listener
    candidates.zipIdx
  rw [tally.countP_eq, tally.countP_eq, tally.length_eq, List.countP_append, List.countP_append,
    List.length_append, rivals, noUnions, noRivals, unions, length_rivalErrors, length_unionErrors,
    length_claimants]
  exact ⟨rfl, Nat.zero_add _, rfl⟩

/-- Every problem is reported at the position of a parameter. -/
theorem lt_length_of_mem_errors {e : Nat × Problem}
    (h : e ∈ (assignRoles program listener candidates).errors) : e.1 < candidates.length := by
  have inside {i : Nat} (hi : i ∈ claimants program listener candidates) :
      i < candidates.length := by
    obtain ⟨c, hc, -⟩ := mem_claimants.1 hi
    exact (List.getElem?_eq_some_iff.1 hc).1
  rcases List.mem_append.1 ((tally_assignRoles program listener candidates).errors.mem_iff.1 h) with
    rival | union
  · unfold rivalErrors at rival
    split at rival
    · cases rival
    · next first rest claims =>
      obtain ⟨i, hi, rfl⟩ := List.mem_map.1 rival
      exact inside (claims ▸ List.mem_cons_of_mem first hi)
  · obtain ⟨⟨c, i⟩, hc, rfl⟩ := List.mem_map.1 union
    exact List.snd_lt_of_mem_zipIdx (List.mem_filter.1 hc).1

/-- Roles are assigned without problems if and only if at most one parameter claims the payload and
none is a mixed union. -/
theorem errors_assignRoles_eq_nil_iff : (assignRoles program listener candidates).errors = [] ↔
    candidates.countP (·.claimsPayload program listener) ≤ 1 ∧
      candidates.countP (·.isMixedPayload program listener) = 0 := by
  rw [← List.length_eq_zero_iff, (countP_errors_assignRoles program listener candidates).2.2]
  omega

/-- Where there are no problems, the payload parameter alone has the payload role. -/
theorem roles_getElem?_eq_payload_iff
    (h : (assignRoles program listener candidates).errors = []) (i : Nat) :
    (assignRoles program listener candidates).roles[i]? = some .payload ↔
      (assignRoles program listener candidates).payload = some i := by
  obtain ⟨single, noUnions⟩ := errors_assignRoles_eq_nil_iff.1 h
  have claimed : (assignRoles program listener candidates).roles[i]? = some .payload ↔
      i ∈ claimants program listener candidates := by
    rw [roles_assignRoles, List.getElem?_map, Option.map_eq_some_iff, mem_claimants]
    refine exists_congr fun c => and_congr_right fun hc => ?_
    have notMixed := List.countP_eq_zero.1 noUnions c (List.mem_of_getElem? hc)
    rw [Candidate.roleOf_eq_payload_iff]
    exact or_iff_left notMixed
  rw [claimed, (tally_assignRoles program listener candidates).payload]
  rw [← length_claimants] at single
  match claimants program listener candidates, single with
  | [], _ => simp
  | [first], _ => simp [eq_comm]

end RoleAssignment

/-- **At most one parameter takes the payload, whatever their order.** Every parameter has its own
role (`roleOf`). Of the parameters that claim the payload all but one are reported, as every mixed
union is, each at its position, and nothing else is. The payload parameter is the first with the
annotation of the payload, or else the first that claims the payload without one. So the roles are
assigned without problems if and only if at most one parameter claims the payload and none is a
mixed union, for any order of the parameters, and then the payload parameter alone has the payload
role. -/
theorem payload_chosen (program : Program) (listener : Listener) (candidates : List Candidate) :
    let a := assignRoles program listener candidates
    let claims := candidates.countP (·.claimsPayload program listener)
    let unions := candidates.countP (·.isMixedPayload program listener)
    a.roles = candidates.map (roleOf program listener) ∧
    a.errors.countP (·.2.isAmbiguousPayload) = claims - 1 ∧
    a.errors.countP (·.2.isMixedUnion) = unions ∧
    a.errors.length = claims - 1 + unions ∧
    (∀ e ∈ a.errors, e.1 < candidates.length) ∧
    a.payload = (candidates.findIdx? (·.isMarkedPayload)).or
      (candidates.findIdx? (·.isImplicitPayload program listener)) ∧
    (a.errors = [] ↔ claims ≤ 1 ∧ unions = 0) ∧
    (a.errors = [] → ∀ i, a.roles[i]? = some .payload ↔ a.payload = some i) ∧
    ∀ others, others.Perm candidates →
      ((assignRoles program listener others).errors = [] ↔ a.errors = []) := by
  obtain ⟨rivals, unions, all⟩ :=
    RoleAssignment.countP_errors_assignRoles program listener candidates
  refine ⟨roles_assignRoles .., rivals, unions, all,
    fun _ => RoleAssignment.lt_length_of_mem_errors, ?_,
    RoleAssignment.errors_assignRoles_eq_nil_iff, RoleAssignment.roles_getElem?_eq_payload_iff,
    fun others perm => ?_⟩
  · rw [(RoleAssignment.tally_assignRoles ..).payload, RoleAssignment.head?_claimants]
  · rw [RoleAssignment.errors_assignRoles_eq_nil_iff, RoleAssignment.errors_assignRoles_eq_nil_iff,
      perm.countP_eq, perm.countP_eq]

theorem payload_chosen_name_and_order :
    let program : Program := ⟨"app", [], [], []⟩
    let candidates : List Candidate :=
      [⟨"name", .builtin .string, none⟩, ⟨"order", .builtin .json, none⟩]
    (assignRoles program .http candidates).errors = [] ∧
      (assignRoles program .http candidates.reverse).errors = [] ∧
      (assignRoles program .http candidates).roles = [.query, .payload] ∧
      (assignRoles program .http candidates).payload = some 1 := by
  intro program candidates
  have name : Shape.of program (.builtin .string) = .basic := by
    simp [Shape.of, TypeExpr.nonNilMembers, Program.isStructured, Program.isStructuredWithin]
  have order : Shape.of program (.builtin .json) = .structured := by
    simp [Shape.of, TypeExpr.nonNilMembers, Program.isStructured, Program.isStructuredWithin]
  obtain ⟨roles, -, -, -, -, payload, none_iff, -, reordered⟩ :=
    payload_chosen program .http candidates
  have none : (assignRoles program .http candidates).errors = [] := by
    refine none_iff.2 ⟨?_, ?_⟩
    · simp [candidates, Candidate.claimsPayload, Candidate.isMarkedPayload,
        Candidate.isImplicitPayload, name, order]
    · simp [candidates, Candidate.isMixedPayload, name, order]
  refine ⟨none, (reordered _ candidates.reverse_perm).2 none, ?_, ?_⟩
  · simp [roles, candidates, roleOf, name, order]
  · simp [payload, candidates, List.findIdx?_cons, Candidate.isMarkedPayload,
      Candidate.isImplicitPayload, name, order]

end FunctionApp
