import FunctionApp.TypeExpr.Effective

/-!
# The size of a type expression

The number of constructors of a type expression. The effective form of a type is never larger, and
that of an intersection is smaller, so that a function may go on with it.
-/

namespace FunctionApp.TypeExpr

mutual

/-- The number of constructors in a type expression. -/
def size : TypeExpr → Nat
  | .builtin _ | .nil | .named _ => 1
  | .array ty | .map ty | .table ty => size ty + 1
  | .tuple members | .union members | .intersection members => sizeAll members + 1

def sizeAll : List TypeExpr → Nat
  | [] => 0
  | ty :: rest => size ty + sizeAll rest

end

@[simp] theorem sizeAll_nil : sizeAll [] = 0 := rfl

theorem sizeAll_cons (ty : TypeExpr) (types : List TypeExpr) :
    sizeAll (ty :: types) = size ty + sizeAll types := rfl

theorem size_union (members : List TypeExpr) : size (.union members) = sizeAll members + 1 := rfl

theorem size_intersection (members : List TypeExpr) :
    size (.intersection members) = sizeAll members + 1 := rfl

theorem sizeAll_append (as bs : List TypeExpr) : sizeAll (as ++ bs) = sizeAll as + sizeAll bs := by
  induction as with
  | nil => simp
  | cons a as ih => simp only [List.cons_append, sizeAll_cons, ih]; omega

theorem size_le_sizeAll {ty : TypeExpr} {types : List TypeExpr} (h : ty ∈ types) :
    size ty ≤ sizeAll types := by
  induction types with
  | nil => simp at h
  | cons a as ih =>
    rw [sizeAll_cons]
    rcases List.mem_cons.1 h with rfl | h
    · omega
    · have := ih h; omega

theorem sizeAll_unionMembers_le (ty : TypeExpr) : sizeAll ty.unionMembers ≤ size ty := by
  cases ty with
  | union members => exact Nat.le_succ _
  | _ => exact Nat.le_refl _

theorem sizeAll_flatMap_unionMembers_le (types : List TypeExpr) :
    sizeAll (types.flatMap unionMembers) ≤ sizeAll types := by
  induction types with
  | nil => simp
  | cons a as ih =>
    rw [List.flatMap_cons, sizeAll_append, sizeAll_cons]
    have := sizeAll_unionMembers_le a
    omega

theorem sizeAll_addMember_le (members : List TypeExpr) (ty : TypeExpr) :
    sizeAll (addMember members ty) ≤ sizeAll members + size ty := by
  rw [addMember]
  split
  · omega
  · simp [sizeAll_append, sizeAll_cons]

theorem sizeAll_foldl_addMember_le (types members : List TypeExpr) :
    sizeAll (types.foldl addMember members) ≤ sizeAll members + sizeAll types := by
  induction types generalizing members with
  | nil => simp
  | cons a as ih =>
    rw [List.foldl_cons, sizeAll_cons]
    have := ih (addMember members a)
    have := sizeAll_addMember_le members a
    omega

theorem size_ofMembers_le (members : List TypeExpr) :
    size (ofMembers members) ≤ sizeAll members + 1 := by
  rw [ofMembers.eq_def]
  split
  · simp [sizeAll_cons]
  · exact Nat.le_refl _

/-- A union is at most one larger than its parts. -/
theorem size_unionOf_le (types : List TypeExpr) : size (unionOf types) ≤ sizeAll types + 1 := by
  have h1 := size_ofMembers_le ((types.flatMap unionMembers).foldl addMember [])
  have h2 := sizeAll_foldl_addMember_le (types.flatMap unionMembers) []
  have h3 := sizeAll_flatMap_unionMembers_le types
  rw [unionOf]
  simp only [sizeAll_nil] at h2
  omega

mutual

/-- The effective form of a type is not larger than the type. -/
theorem size_effective_le : ∀ {ty r : TypeExpr}, effective ty = .ok r → size r ≤ size ty
  | .intersection members, r, h => by
    rw [effective] at h
    have := size_effectiveOfSingle_le h
    rw [size_intersection]
    omega
  | .union members, r, h => by
    rw [effective] at h
    cases hm : effectiveMembers members with
    | error e => simp [hm, bind, Except.bind] at h
    | ok parts =>
      simp only [hm, bind, Except.bind, pure, Except.pure, Except.ok.injEq] at h
      have h1 := sizeAll_effectiveMembers_le hm
      have h2 := size_unionOf_le parts
      rw [← h, size_union]
      omega
  | .builtin _, r, h | .nil, r, h | .array _, r, h | .map _, r, h | .table _, r, h
  | .tuple _, r, h | .named _, r, h => by
    simp only [effective, Except.ok.injEq] at h
    exact h ▸ Nat.le_refl _

theorem size_effectiveOfSingle_le : ∀ {whole r : TypeExpr} {members : List TypeExpr},
    effectiveOfSingle whole members = .ok r → size r ≤ sizeAll members
  | _, _, [], h => by simp [effectiveOfSingle] at h
  | whole, r, ty :: rest, h => by
    rw [effectiveOfSingle] at h
    rw [sizeAll_cons]
    split at h
    · have := size_effectiveOfSingle_le h; omega
    · split at h
      · have := size_effective_le h; omega
      · simp at h

theorem sizeAll_effectiveMembers_le : ∀ {types parts : List TypeExpr},
    effectiveMembers types = .ok parts → sizeAll parts ≤ sizeAll types
  | [], parts, h => by
    simp only [effectiveMembers, Except.ok.injEq] at h
    exact h ▸ Nat.le_refl _
  | ty :: rest, parts, h => by
    rw [effectiveMembers] at h
    cases he : effective ty with
    | error e => simp [he, bind, Except.bind] at h
    | ok first =>
      cases hm : effectiveMembers rest with
      | error e => simp [he, hm, bind, Except.bind] at h
      | ok others =>
        simp only [he, hm, bind, Except.bind, pure, Except.pure, Except.ok.injEq] at h
        have h1 := size_effective_le he
        have h2 := sizeAll_effectiveMembers_le hm
        rw [← h, sizeAll_cons, sizeAll_cons]
        omega

end

/-- The effective form of an intersection is smaller than the intersection. -/
theorem size_effective_lt {members : List TypeExpr} {r : TypeExpr}
    (h : effective (.intersection members) = .ok r) : size r < size (.intersection members) := by
  rw [effective] at h
  have := size_effectiveOfSingle_le h
  rw [size_intersection]
  omega

end FunctionApp.TypeExpr
