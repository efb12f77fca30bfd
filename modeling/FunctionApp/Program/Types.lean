import FunctionApp.Program.Basic
import FunctionApp.TypeExpr.Size

/-!
# Type questions of a program

Named types may refer to each other in any way, also in circles. Every question below therefore
keeps the names that it may still look up (`Program.namesFor`): it starts with all that can be met,
takes each at most once, and so comes to an end.
-/

namespace FunctionApp

namespace TypeExpr

mutual

/-- The names that stand anywhere in a type expression. -/
def names : TypeExpr → List String
  | .builtin _ | .nil => []
  | .array ty | .map ty | .table ty => names ty
  | .tuple members | .union members | .intersection members => namesOfAll members
  | .named name => [name]

def namesOfAll : List TypeExpr → List String
  | [] => []
  | ty :: rest => names ty ++ namesOfAll rest

end

mutual

/-- The names that a value of a type may hold data of, or nothing if the type itself has values that
are no plain data: `any` and `error` have, and so has an intersection that stands for nothing. -/
def dataNames? : TypeExpr → Option (List String)
  | .builtin .any | .builtin .error => none
  | .builtin _ | .nil => some []
  | .array ty | .map ty | .table ty => dataNames? ty
  | .tuple members | .union members => dataNamesOfAll? members
  | .intersection members => dataNamesOfSingle? members
  | .named name => some [name]

def dataNamesOfAll? : List TypeExpr → Option (List String)
  | [] => some []
  | ty :: rest => do return (← dataNames? ty) ++ (← dataNamesOfAll? rest)

/-- The names of the one member other than `readonly`. -/
def dataNamesOfSingle? : List TypeExpr → Option (List String)
  | [] => none
  | ty :: rest =>
    if ty.isReadonly then dataNamesOfSingle? rest
    else if rest.all isReadonly then dataNames? ty
    else none

end

end TypeExpr

def TypeDefinition.parts : TypeDefinition → List TypeExpr
  | .record r => r.fields.map (·.2) ++ r.rest.toList
  | .object => []
  | .alias ty => [ty]

def dropName (name : String) (names : List String) : List String := names.filter (· ≠ name)

/-- Without a name that is among them there are fewer. -/
theorem length_dropName_lt {name : String} {names : List String} (h : name ∈ names) :
    (dropName name names).length < names.length :=
  List.length_filter_lt_length_iff_exists.2 ⟨name, h, by simp⟩

namespace Program

/-- The definition of a type name. A name with a prefix that is not defined itself stands for the
name without it. -/
def definition? (program : Program) (name : String) : Option TypeDefinition :=
  (program.types.lookup name).or
    ((Text.splitFirst ':' name).bind fun (_, localName) => program.types.lookup localName)

def namesFor (program : Program) (ty : TypeExpr) : List String :=
  ty.names ++ program.types.flatMap fun (_, d) => TypeExpr.namesOfAll d.parts

/-! ## Aliases -/

/-- The type that an alias stands for. -/
def alias? (program : Program) (name : String) : Option TypeExpr :=
  match program.definition? name with
  | some (.alias ty) => some ty
  | _ => none

/-- The type behind a chain of aliases with the given names. -/
def resolveAliasWithin (program : Program) (names : List String) : TypeExpr → TypeExpr
  | .named name =>
    if _ : name ∈ names then
      match program.alias? name with
      | some ty => resolveAliasWithin program (dropName name names) ty
      | none => .named name
    else .named name
  | ty => ty
termination_by names.length
decreasing_by exact length_dropName_lt ‹_›

/-- The type behind the aliases that a type is a chain of. A chain that comes back to one of its
names stops there. -/
def resolveAlias (program : Program) (ty : TypeExpr) : TypeExpr :=
  program.resolveAliasWithin (program.namesFor ty) ty

def recordType? (program : Program) (ty : TypeExpr) : Option RecordType :=
  match program.resolveAlias ty with
  | .named name =>
    match program.definition? name with
    | some (.record r) => some r
    | _ => none
  | _ => none

def isRecord (program : Program) (ty : TypeExpr) : Bool := (program.recordType? ty).isSome

def isRecordArray (program : Program) (ty : TypeExpr) : Bool :=
  match program.resolveAlias ty with
  | .array element => program.isRecord element
  | _ => false

/-- Whether a type is a basic scalar or an array of them. -/
def isBasic (program : Program) (ty : TypeExpr) : Bool :=
  match program.resolveAlias ty with
  | .array element => (program.resolveAlias element).isBasicScalar
  | ty => ty.isBasicScalar

/-- The type behind what is left of a type without `()`. -/
def valueBehind? (program : Program) (ty : TypeExpr) : Option TypeExpr :=
  ty.withoutNil.map program.resolveAlias

/-! ## Plain data -/

/-- The names that the definition of a name may hold data of, or nothing if it holds none: objects
and undefined names do not. -/
def dataParts? (program : Program) (name : String) : Option (List String) :=
  match program.definition? name with
  | some .object | none => none
  | some d => TypeExpr.dataNamesOfAll? d.parts

/-- Whether all names of a list hold plain data, where only the names of `fresh` are still to be
looked at. -/
def holdData (program : Program) (fresh : List String) : List String → Bool
  | [] => true
  | name :: rest =>
    if _ : name ∈ fresh then
      match program.dataParts? name with
      | some names => holdData program (dropName name fresh) (names ++ rest)
      | none => false
    else holdData program fresh rest
termination_by names => (fresh.length, names.length)
decreasing_by
  · exact Prod.Lex.left _ _ (length_dropName_lt ‹_›)
  · exact Prod.Lex.right _ (by simp)

/-- Whether the values of a type are plain data. -/
def isAnydata (program : Program) (ty : TypeExpr) : Bool :=
  match ty.dataNames? with
  | some names => program.holdData (program.namesFor ty) names
  | none => false

/-! ## Structured types -/

/-- Whether a type is structured, where only the given names are still to be looked up. -/
def isStructuredWithin (program : Program) (names : List String) : TypeExpr → Bool
  | .map _ | .table _ | .tuple _ | .builtin .xml | .builtin .json | .builtin .anydata => true
  | .array element => element == .builtin .byte || isStructuredWithin program names element
  | .intersection members =>
    match _h : TypeExpr.effective (.intersection members) with
    | .ok ty => isStructuredWithin program names ty
    | .error _ => false
  | .named name =>
    if _ : name ∈ names then
      match program.definition? name with
      | some (.record _) => true
      | some (.alias ty) => isStructuredWithin program (dropName name names) ty
      | _ => false
    else false
  | _ => false
termination_by ty => (names.length, ty.size)
decreasing_by
  · exact Prod.Lex.right _ (by simp [TypeExpr.size])
  · exact Prod.Lex.right _ (TypeExpr.size_effective_lt ‹_›)
  · exact Prod.Lex.left _ _ (length_dropName_lt ‹_›)

attribute [grind =] resolveAliasWithin holdData isStructuredWithin

/-- Whether a type is structured: a collection other than an array of scalars, or a record. -/
def isStructured (program : Program) (ty : TypeExpr) : Bool :=
  program.isStructuredWithin (program.namesFor ty) ty

end Program

end FunctionApp
