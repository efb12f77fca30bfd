import FunctionApp.Handler.Payload

/-!
# The roles that parameters get

Which role a parameter gets depends on the parameter alone (`roleOf`): the other parameters decide
only what is reported. Whatever is reported is an error.
-/

namespace FunctionApp

/-- The role of a parameter: the one its annotation gives, or else the one its type calls for. -/
def roleOf (program : Program) (listener : Listener) (c : Candidate) : Role :=
  match c.explicit with
  | some role => role
  | none =>
    if listener = .http ∧ Shape.of program c.type = .basic then .query else .payload

namespace RoleAssignment

variable (program : Program) (listener : Listener) (candidates : List Candidate)

/-- Every problem that was found with the roles is an error. -/
def OnlyErrors (a : RoleAssignment) : Prop := ∀ e ∈ a.errors, e.2.severity = .error

@[simp] theorem roles_claim (index : Nat) (a : RoleAssignment) :
    (a.claim candidates index).roles = a.roles := by
  unfold claim
  split <;> rfl

@[simp] theorem roles_addRole (role : Role) (a : RoleAssignment) :
    (a.addRole role).roles = a.roles ++ [role] := rfl

@[simp] theorem roles_addError (index : Nat) (problem : Problem) (a : RoleAssignment) :
    (a.addError index problem).roles = a.roles := rfl

theorem OnlyErrors.claim {a : RoleAssignment} (h : a.OnlyErrors) (index : Nat) :
    (a.claim candidates index).OnlyErrors := by
  unfold RoleAssignment.claim
  split
  · exact h
  · intro e he
    rcases List.mem_append.1 he with he | he
    · exact h e he
    · obtain rfl := List.mem_singleton.1 he
      rfl

theorem roles_assign (a : RoleAssignment) (c : Candidate) (index : Nat) :
    (a.assign program listener candidates c index).roles =
      a.roles ++ [roleOf program listener c] := by
  unfold assign roleOf
  cases c.explicit with
  | some role => rfl
  | none =>
    by_cases hl : listener = .http
    · cases hs : Shape.of program c.type <;> simp [hl]
    · simp [hl]

theorem OnlyErrors.assign {a : RoleAssignment} (h : a.OnlyErrors) (c : Candidate) (index : Nat) :
    (a.assign program listener candidates c index).OnlyErrors := by
  unfold RoleAssignment.assign
  cases c.explicit with
  | some role => exact h
  | none =>
    dsimp only
    split
    · exact h.claim candidates index
    · split
      · exact h
      · exact h.claim candidates index
      · intro e he
        rcases List.mem_append.1 he with he | he
        · exact h e he
        · obtain rfl := List.mem_singleton.1 he
          rfl

/-- The parameters that were marked have no role yet, but may already be too many. -/
theorem claimExplicit_start :
    (claimExplicit candidates).roles = [] ∧ (claimExplicit candidates).OnlyErrors := by
  unfold claimExplicit
  refine List.foldlRecOn (motive := fun a : RoleAssignment => a.roles = [] ∧ a.OnlyErrors) _ _
    ⟨rfl, fun e he => by cases he⟩ ?_
  intro a ⟨hr, he⟩ c _
  exact ⟨(roles_claim candidates c.2 a).trans hr, he.claim candidates c.2⟩

theorem roles_foldl_assign (cs : List Candidate) (index : Nat) (a : RoleAssignment) :
    ((cs.zipIdx index).foldl (fun a (c, index) => a.assign program listener candidates c index)
      a).roles = a.roles ++ cs.map (roleOf program listener) := by
  induction cs generalizing index a with
  | nil => simp
  | cons c cs ih =>
    rw [List.zipIdx_cons, List.foldl_cons, ih, roles_assign, List.map_cons, List.append_assoc]
    rfl

end RoleAssignment

variable (program : Program) (listener : Listener) (candidates : List Candidate)

/-- **Every parameter gets its own role**, in the order of the parameters. -/
theorem roles_assignRoles :
    (assignRoles program listener candidates).roles = candidates.map (roleOf program listener) := by
  unfold assignRoles
  rw [RoleAssignment.roles_foldl_assign, (RoleAssignment.claimExplicit_start candidates).1,
    List.nil_append]

theorem assignRoles_onlyErrors : (assignRoles program listener candidates).OnlyErrors :=
  List.foldlRecOn _ _ (RoleAssignment.claimExplicit_start candidates).2 fun _ h c _ =>
    h.assign program listener candidates c.1 c.2

end FunctionApp
