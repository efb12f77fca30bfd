/-!
# Type expressions

The types of handler parameters, returns and record fields. `union` is the one way unions are put
together: it flattens one level, keeps the first of equal members and never yields a union of one.
The functions below it read off the members of a type: whether `()` or `error` is among them, and
what is left without them.
-/

namespace FunctionApp

/-- The built-in types that are written as one word. -/
inductive Builtin where
  | string
  | int
  | float
  | decimal
  | boolean
  | byte
  | json
  | anydata
  | any
  | xml
  | error
  | readonly
deriving DecidableEq, Repr

inductive TypeExpr where
  | builtin (word : Builtin)
  /-- The type `()` of the absent value. -/
  | nil
  | array (element : TypeExpr)
  | map (value : TypeExpr)
  | table (row : TypeExpr)
  | tuple (members : List TypeExpr)
  | union (members : List TypeExpr)
  | intersection (members : List TypeExpr)
  /-- A type that the program defines. -/
  | named (name : String)
deriving Inhabited

namespace TypeExpr

/-! ## Equality -/

mutual

def same : TypeExpr → TypeExpr → Bool
  | .builtin a, .builtin b => a == b
  | .nil, .nil => true
  | .array a, .array b => same a b
  | .map a, .map b => same a b
  | .table a, .table b => same a b
  | .tuple a, .tuple b => sameMembers a b
  | .union a, .union b => sameMembers a b
  | .intersection a, .intersection b => sameMembers a b
  | .named a, .named b => a == b
  | _, _ => false

def sameMembers : List TypeExpr → List TypeExpr → Bool
  | [], [] => true
  | a :: as, b :: bs => same a b && sameMembers as bs
  | _, _ => false

end

mutual

theorem eq_of_same : ∀ {a b : TypeExpr}, same a b = true → a = b
  | .builtin _, b, h => by cases b <;> simp_all [same]
  | .nil, b, h => by cases b <;> simp_all [same]
  | .named _, b, h => by cases b <;> simp_all [same]
  | .array _, b, h => by
    cases b <;> simp only [same, Bool.false_eq_true] at h
    rw [eq_of_same h]
  | .map _, b, h => by
    cases b <;> simp only [same, Bool.false_eq_true] at h
    rw [eq_of_same h]
  | .table _, b, h => by
    cases b <;> simp only [same, Bool.false_eq_true] at h
    rw [eq_of_same h]
  | .tuple _, b, h => by
    cases b <;> simp only [same, Bool.false_eq_true] at h
    rw [eq_of_sameMembers h]
  | .union _, b, h => by
    cases b <;> simp only [same, Bool.false_eq_true] at h
    rw [eq_of_sameMembers h]
  | .intersection _, b, h => by
    cases b <;> simp only [same, Bool.false_eq_true] at h
    rw [eq_of_sameMembers h]

theorem eq_of_sameMembers : ∀ {as bs : List TypeExpr}, sameMembers as bs = true → as = bs
  | [], bs, h => by cases bs <;> simp_all [sameMembers]
  | a :: as, bs, h => by
    cases bs with
    | nil => simp [sameMembers] at h
    | cons b bs =>
      rw [sameMembers, Bool.and_eq_true] at h
      rw [eq_of_same h.1, eq_of_sameMembers h.2]

end

mutual

theorem same_self : ∀ a : TypeExpr, same a a = true
  | .builtin _ | .nil | .named _ => by simp [same]
  | .array a | .map a | .table a => by rw [same, same_self a]
  | .tuple as | .union as | .intersection as => by rw [same, sameMembers_self as]

theorem sameMembers_self : ∀ as : List TypeExpr, sameMembers as as = true
  | [] => rfl
  | a :: as => by rw [sameMembers, same_self a, sameMembers_self as]; rfl

end

instance : DecidableEq TypeExpr := fun a b =>
  decidable_of_iff (same a b = true) ⟨eq_of_same, fun h => h ▸ same_self a⟩

/-! ## Unions -/

/-- The members that a type brings into a union. -/
def unionMembers : TypeExpr → List TypeExpr
  | .union members => members
  | ty => [ty]

/-- A list with `ty` at its end, unless it is there already. -/
def addMember (members : List TypeExpr) (ty : TypeExpr) : List TypeExpr :=
  if ty ∈ members then members else members ++ [ty]

/-- A type of the given members: a single member itself, else their union. -/
def ofMembers : List TypeExpr → TypeExpr
  | [ty] => ty
  | members => .union members

/-- The union of types, flattened one level and without repetitions. -/
def unionOf (types : List TypeExpr) : TypeExpr :=
  ofMembers ((types.flatMap unionMembers).foldl addMember [])

/-- The type `T?`, the union of `T` and `()`. -/
def optional (ty : TypeExpr) : TypeExpr := unionOf [ty, .nil]

/-! ## Members -/

def isNil : TypeExpr → Bool
  | .nil => true
  | _ => false

def isError : TypeExpr → Bool
  | .builtin .error => true
  | _ => false

mutual

def isNilable : TypeExpr → Bool
  | .nil => true
  | .union members => anyNilable members
  | _ => false

def anyNilable : List TypeExpr → Bool
  | [] => false
  | ty :: rest => isNilable ty || anyNilable rest

end

mutual

def containsError : TypeExpr → Bool
  | .builtin .error => true
  | .union members => anyContainsError members
  | _ => false

def anyContainsError : List TypeExpr → Bool
  | [] => false
  | ty :: rest => containsError ty || anyContainsError rest

end

/-- The members of a type other than `()`. -/
def nonNilMembers : TypeExpr → List TypeExpr
  | .union members => members.filter fun m => !m.isNil
  | .nil => []
  | ty => [ty]

/-- The union of types, or nothing if there are none. -/
def unionOf? : List TypeExpr → Option TypeExpr
  | [] => none
  | types => some (unionOf types)

attribute [grind =] unionOf?

/-- A type without `()`, if anything else remains. -/
def withoutNil (ty : TypeExpr) : Option TypeExpr := unionOf? ty.nonNilMembers

/-- The members of a type other than `()` and `error`. -/
def valueMembers : TypeExpr → List TypeExpr
  | .union members => members.filter fun m => !m.isNil && !m.isError
  | .nil => []
  | .builtin .error => []
  | ty => [ty]

/-- The value part of a return type: what remains without `()` and `error`, if anything does. -/
def valueType (ty : TypeExpr) : Option TypeExpr := unionOf? ty.valueMembers

/-! ## Basic types -/

/-- Whether a type is `string`, `int`, `float`, `decimal` or `boolean`. -/
def isBasicScalar : TypeExpr → Bool
  | .builtin .string | .builtin .int | .builtin .float | .builtin .decimal | .builtin .boolean =>
    true
  | _ => false

/-- Whether a type is a basic scalar or an array of them. -/
def isBasic : TypeExpr → Bool
  | .array element => element.isBasicScalar
  | ty => ty.isBasicScalar

def isByteArray : TypeExpr → Bool
  | .array (.builtin .byte) => true
  | _ => false

end TypeExpr

end FunctionApp
