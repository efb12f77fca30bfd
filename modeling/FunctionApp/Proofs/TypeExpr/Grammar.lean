import FunctionApp.Proofs.TypeExpr.Tokens

/-!
# The grammar of type expressions

The grammar as a relation between tokens and the type that they denote, with one relation for each
nonterminal and one constructor for each production. Where a derivation starts and what tokens it has
is settled by its first production.
-/

namespace FunctionApp.TypeExpr

namespace Grammar

/-- What members with bars between them denote. -/
def alternation (first : TypeExpr) (more : List TypeExpr) : TypeExpr :=
  if more = [] then first else unionOf (first :: more)

/-- What members with ampersands between them denote. -/
def conjunction (first : TypeExpr) (more : List TypeExpr) : TypeExpr :=
  if more = [] then first else .intersection (first :: more)

/-- `('[' ']' | '?')*` behind what denotes the first type: then all of it denotes the second. -/
inductive Suffixes : TypeExpr → List Token → TypeExpr → Prop where
  | nil {ty : TypeExpr} : Suffixes ty [] ty
  | array {ty r : TypeExpr} {ts : List Token} :
      Suffixes (.array ty) ts r → Suffixes ty (.openBracket :: .closeBracket :: ts) r
  | optional {ty r : TypeExpr} {ts : List Token} :
      Suffixes (optional ty) ts r → Suffixes ty (.question :: ts) r

mutual

/-- `type := inter ('|' inter)*` -/
inductive IsUnion : List Token → TypeExpr → Prop where
  | mk {ts more : List Token} {ty : TypeExpr} {tys : List TypeExpr} :
      IsIntersection ts ty → Alternatives more tys → IsUnion (ts ++ more) (alternation ty tys)

/-- `('|' inter)*` -/
inductive Alternatives : List Token → List TypeExpr → Prop where
  | nil : Alternatives [] []
  | cons {ts more : List Token} {ty : TypeExpr} {tys : List TypeExpr} :
      IsIntersection ts ty → Alternatives more tys → Alternatives (.bar :: (ts ++ more)) (ty :: tys)

/-- `inter := postfix ('&' postfix)*` -/
inductive IsIntersection : List Token → TypeExpr → Prop where
  | mk {ts more : List Token} {ty : TypeExpr} {tys : List TypeExpr} :
      IsPostfix ts ty → Operands more tys → IsIntersection (ts ++ more) (conjunction ty tys)

/-- `('&' postfix)*` -/
inductive Operands : List Token → List TypeExpr → Prop where
  | nil : Operands [] []
  | cons {ts more : List Token} {ty : TypeExpr} {tys : List TypeExpr} :
      IsPostfix ts ty → Operands more tys → Operands (.ampersand :: (ts ++ more)) (ty :: tys)

/-- `postfix := primary ('[' ']' | '?')*` -/
inductive IsPostfix : List Token → TypeExpr → Prop where
  | mk {ts more : List Token} {ty r : TypeExpr} :
      IsPrimary ts ty → Suffixes ty more r → IsPostfix (ts ++ more) r

/-- `primary := '(' ')' | '(' type ')' | '[' type (',' type)* ']' | 'map' '<' type '>'`
`| 'table' '<' type '>' | name`, where a name is a built-in type or a defined one. -/
inductive IsPrimary : List Token → TypeExpr → Prop where
  | nil : IsPrimary [.openParen, .closeParen] .nil
  | parens {ts : List Token} {ty : TypeExpr} :
      IsUnion ts ty → IsPrimary (.openParen :: (ts ++ [.closeParen])) ty
  | tuple {ts more : List Token} {ty : TypeExpr} {tys : List TypeExpr} :
      IsUnion ts ty → Elements more tys →
      IsPrimary (.openBracket :: (ts ++ (more ++ [.closeBracket]))) (.tuple (ty :: tys))
  | map {ts : List Token} {ty : TypeExpr} :
      IsUnion ts ty → IsPrimary (.name "map" :: .less :: (ts ++ [.greater])) (.map ty)
  | table {ts : List Token} {ty : TypeExpr} :
      IsUnion ts ty → IsPrimary (.name "table" :: .less :: (ts ++ [.greater])) (.table ty)
  | builtin (b : Builtin) : IsPrimary [.name b.word] (.builtin b)
  | named {name : String} :
      name ≠ "map" → name ≠ "table" → (∀ b : Builtin, name ≠ b.word) →
      IsPrimary [.name name] (.named name)

/-- `(',' type)*` -/
inductive Elements : List Token → List TypeExpr → Prop where
  | nil : Elements [] []
  | cons {ts more : List Token} {ty : TypeExpr} {tys : List TypeExpr} :
      IsUnion ts ty → Elements more tys → Elements (.comma :: (ts ++ more)) (ty :: tys)

end

/-! ## Where derivations start -/

theorem head?_of_alternatives {ts : List Token} {tys : List TypeExpr} (h : Alternatives ts tys) :
    ∀ t ∈ ts.head?, t = .bar := by
  cases h <;> simp

theorem head?_of_operands {ts : List Token} {tys : List TypeExpr} (h : Operands ts tys) :
    ∀ t ∈ ts.head?, t = .ampersand := by
  cases h <;> simp

theorem head?_of_elements {ts : List Token} {tys : List TypeExpr} (h : Elements ts tys) :
    ∀ t ∈ ts.head?, t = .comma := by
  cases h <;> simp

/-- A type starts with a bracket that opens or with a name. -/
theorem head?_of_union {ts : List Token} {ty : TypeExpr} (h : IsUnion ts ty) :
    ∃ t more, ts = t :: more ∧ t ≠ .closeParen := by
  obtain ⟨⟨⟨hp, -⟩, -⟩, -⟩ := h
  cases hp <;> exact ⟨_, _, rfl, by simp⟩

/-! ## Putting derivations together -/

theorem Suffixes.append {ty r r' : TypeExpr} {ts us : List Token} (h : Suffixes ty ts r)
    (h' : Suffixes r us r') : Suffixes ty (ts ++ us) r' := by
  induction h with
  | nil => exact h'
  | array _ ih => exact .array (ih h')
  | optional _ ih => exact .optional (ih h')

theorem IsPostfix.suffix {ty r : TypeExpr} {ts us : List Token} (h : IsPostfix ts ty)
    (h' : Suffixes ty us r) : IsPostfix (ts ++ us) r := by
  obtain ⟨hp, hs⟩ := h
  rw [List.append_assoc]
  exact .mk hp (hs.append h')

theorem IsPrimary.toPostfix {ty : TypeExpr} {ts : List Token} (h : IsPrimary ts ty) :
    IsPostfix ts ty := by
  simpa using IsPostfix.mk h .nil

theorem IsPostfix.toIntersection {ty : TypeExpr} {ts : List Token} (h : IsPostfix ts ty) :
    IsIntersection ts ty := by
  simpa [conjunction] using IsIntersection.mk h .nil

theorem IsIntersection.toUnion {ty : TypeExpr} {ts : List Token} (h : IsIntersection ts ty) :
    IsUnion ts ty := by
  simpa [alternation] using IsUnion.mk h .nil

theorem alternatives_of_forall₂ {tss : List (List Token)} {tys : List TypeExpr}
    (h : List.Forall₂ IsIntersection tss tys) : Alternatives (tss.flatMap (.bar :: ·)) tys := by
  induction h with
  | nil => exact .nil
  | cons hi _ ih => exact .cons hi ih

theorem Alternatives.append {ts us : List Token} {tys uys : List TypeExpr} :
    Alternatives ts tys → Alternatives us uys → Alternatives (ts ++ us) (tys ++ uys)
  | .nil, h' => h'
  | .cons hi ha, h' => by
    have := Alternatives.cons hi (Alternatives.append ha h')
    simpa using this

theorem elements_of_forall₂ {tss : List (List Token)} {tys : List TypeExpr}
    (h : List.Forall₂ IsUnion tss tys) : Elements (tss.flatMap (.comma :: ·)) tys := by
  induction h with
  | nil => exact .nil
  | cons hi _ ih => exact .cons hi ih

/-- `postfix ('&' postfix)*` with the operands apart. -/
inductive Conjuncts : List Token → List TypeExpr → Prop where
  | mk {ts more : List Token} {ty : TypeExpr} {tys : List TypeExpr} :
      IsPostfix ts ty → Operands more tys → Conjuncts (ts ++ more) (ty :: tys)

theorem Operands.append {ts us : List Token} {tys uys : List TypeExpr} :
    Operands ts tys → Operands us uys → Operands (ts ++ us) (tys ++ uys)
  | .nil, h' => h'
  | .cons hp ho, h' => by
    have := Operands.cons hp (Operands.append ho h')
    simpa using this

theorem IsPostfix.toConjuncts {ty : TypeExpr} {ts : List Token} (h : IsPostfix ts ty) :
    Conjuncts ts [ty] := by
  simpa using Conjuncts.mk h .nil

theorem Conjuncts.toOperands {ts : List Token} {tys : List TypeExpr} (h : Conjuncts ts tys) :
    Operands (.ampersand :: ts) tys := by
  obtain ⟨hp, ho⟩ := h
  exact .cons hp ho

theorem Conjuncts.append {ts us : List Token} {tys uys : List TypeExpr} (h : Conjuncts ts tys)
    (h' : Operands us uys) : Conjuncts (ts ++ us) (tys ++ uys) := by
  obtain ⟨hp, ho⟩ := h
  rw [List.append_assoc, List.cons_append]
  exact .mk hp (Operands.append ho h')

theorem Conjuncts.toIntersection {ts : List Token} {tys : List TypeExpr} (h : Conjuncts ts tys)
    (hl : 2 ≤ tys.length) : IsIntersection ts (.intersection tys) := by
  obtain ⟨hp, ho⟩ := h
  have denoted := IsIntersection.mk hp ho
  rwa [conjunction, if_neg] at denoted
  rintro rfl
  simp at hl

/-- Conjuncts with ampersands between them are operands one after another. -/
theorem operands_of_forall₂ {α : Type} {f : α → List TypeExpr} {tss : List (List Token)}
    {as : List α} (h : List.Forall₂ (fun ts a => Conjuncts ts (f a)) tss as) :
    Operands (tss.flatMap (.ampersand :: ·)) (as.flatMap f) := by
  induction h with
  | nil => exact .nil
  | cons hc _ ih => exact Operands.append hc.toOperands ih

/-! ## What tokens derivations have -/

theorem other_not_mem_suffixes {ty r : TypeExpr} {ts : List Token} (h : Suffixes ty ts r) (c : Char) :
    .other c ∉ ts := by
  induction h with
  | nil => simp
  | array _ ih => simpa using ih
  | optional _ ih => simpa using ih

mutual

/-- The grammar has no tokens but its own. -/
theorem other_not_mem_union : ∀ {ts : List Token} {ty : TypeExpr}, IsUnion ts ty →
    ∀ c, .other c ∉ ts
  | _, _, .mk hi ha, c => by
    simp [other_not_mem_intersection hi c, other_not_mem_alternatives ha c]

theorem other_not_mem_alternatives : ∀ {ts : List Token} {tys : List TypeExpr},
    Alternatives ts tys → ∀ c, .other c ∉ ts
  | _, _, .nil, c => by simp
  | _, _, .cons hi ha, c => by
    simp [other_not_mem_intersection hi c, other_not_mem_alternatives ha c]

theorem other_not_mem_intersection : ∀ {ts : List Token} {ty : TypeExpr}, IsIntersection ts ty →
    ∀ c, .other c ∉ ts
  | _, _, .mk hp ho, c => by simp [other_not_mem_postfixed hp c, other_not_mem_operands ho c]

theorem other_not_mem_operands : ∀ {ts : List Token} {tys : List TypeExpr},
    Operands ts tys → ∀ c, .other c ∉ ts
  | _, _, .nil, c => by simp
  | _, _, .cons hp ho, c => by simp [other_not_mem_postfixed hp c, other_not_mem_operands ho c]

theorem other_not_mem_postfixed : ∀ {ts : List Token} {ty : TypeExpr}, IsPostfix ts ty →
    ∀ c, .other c ∉ ts
  | _, _, .mk hp hs, c => by simp [other_not_mem_primary hp c, other_not_mem_suffixes hs c]

theorem other_not_mem_primary : ∀ {ts : List Token} {ty : TypeExpr}, IsPrimary ts ty →
    ∀ c, .other c ∉ ts
  | _, _, .nil, c | _, _, .builtin _, c | _, _, .named _ _ _, c => by simp
  | _, _, .parens h, c | _, _, .map h, c | _, _, .table h, c => by
    simp [other_not_mem_union h c]
  | _, _, .tuple h he, c => by simp [other_not_mem_union h c, other_not_mem_elements he c]

theorem other_not_mem_elements : ∀ {ts : List Token} {tys : List TypeExpr},
    Elements ts tys → ∀ c, .other c ∉ ts
  | _, _, .nil, c => by simp
  | _, _, .cons h he, c => by simp [other_not_mem_union h c, other_not_mem_elements he c]

end

end Grammar

end FunctionApp.TypeExpr
