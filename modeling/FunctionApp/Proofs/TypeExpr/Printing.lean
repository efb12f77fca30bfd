import FunctionApp.Proofs.TypeExpr.Respelling

/-!
# What the text of a type denotes

The text of a normal type is a type expression again, and it denotes the type respelled
(`parse_print`). So a type that was read is read back from its text if and only if no intersection in
it is an operand of another and no union in it has `()` as the first of two members.
-/

namespace FunctionApp.TypeExpr

open Grammar

/-- The text of a type as an operand of an intersection. -/
def printOperand (ty : TypeExpr) : String :=
  if ty.isUnion then "(" ++ print ty ++ ")" else print ty

@[simp] theorem printAll_eq_map (tys : List TypeExpr) : printAll tys = tys.map print := by
  induction tys with
  | nil => rfl
  | cons ty rest ih => rw [printAll, ih, List.map_cons]

@[simp] theorem printOperands_eq_map (tys : List TypeExpr) :
    printOperands tys = tys.map printOperand := by
  induction tys with
  | nil => rfl
  | cons ty rest ih => rw [printOperands, ih, List.map_cons, printOperand]

/-! ## Texts between brackets -/

theorem spells_parens {text : String} {ts : List Token} (h : Spells text.toList ts) :
    Spells ("(" ++ text ++ ")").toList (.openParen :: (ts ++ [.closeParen])) := by
  have spelled : Spells ('(' :: (text.toList ++ [')'])) (.openParen :: (ts ++ [.closeParen])) :=
    .symbol (by decide) (h.append_symbol (by decide) .nil)
  simpa using spelled

theorem spells_brackets {text : String} {ts : List Token} (h : Spells text.toList ts) :
    Spells ("[" ++ text ++ "]").toList (.openBracket :: (ts ++ [.closeBracket])) := by
  have spelled : Spells ('[' :: (text.toList ++ [']'])) (.openBracket :: (ts ++ [.closeBracket])) :=
    .symbol (by decide) (h.append_symbol (by decide) .nil)
  simpa using spelled

theorem spells_parameter {word text : String} {ts : List Token} (hw : IsName word)
    (h : Spells text.toList ts) :
    Spells (word ++ "<" ++ text ++ ">").toList (.name word :: .less :: (ts ++ [.greater])) := by
  have spelled : Spells (word.toList ++ '<' :: (text.toList ++ ['>']))
      ([.name word] ++ .less :: (ts ++ [.greater])) :=
    (spells_name hw).append_symbol (by decide) (h.append_symbol (by decide) .nil)
  simpa using spelled

/-! ## The text of a type -/

/-- What the tokens of the text of a type derive, where no brackets stand around the text. -/
def Denotes (ts : List Token) : TypeExpr → Prop
  | .union tys => IsUnion ts (respelled (.union tys))
  | .intersection tys => Conjuncts ts (respelledOperands tys)
  | ty => IsPostfix ts ty.respelled

namespace Denotes

variable {ty : TypeExpr} {ts : List Token}

theorem toPostfix (h : Denotes ts ty) (hb : ty.needsBrackets = false) :
    IsPostfix ts ty.respelled := by
  cases ty with
  | union tys | intersection tys => cases hb
  | _ => exact h

theorem toIntersection (h : Denotes ts ty) (hn : Normal ty) (hu : ty.isUnion = false) :
    IsIntersection ts ty.respelled := by
  cases hn with
  | union => cases hu
  | @intersection tys hl hn =>
    have := length_le_length_respelledOperands hn
    rw [respelled]
    exact Conjuncts.toIntersection h (by omega)
  | _ => exact IsPostfix.toIntersection h

theorem toUnion (h : Denotes ts ty) (hn : Normal ty) : IsUnion ts ty.respelled := by
  cases hu : ty.isUnion with
  | false => exact (h.toIntersection hn hu).toUnion
  | true =>
    cases ty with
    | union tys => exact h
    | _ => cases hu

end Denotes

section

variable {ty : TypeExpr} (hn : Normal ty) (h : ∃ ts, Spells ty.print.toList ts ∧ Denotes ts ty)

include hn h

theorem exists_spells_bracketed :
    ∃ ts, Spells (bracketed ty ty.print).toList ts ∧ IsPostfix ts ty.respelled := by
  obtain ⟨ts, hs, hd⟩ := h
  rw [bracketed]
  cases hb : ty.needsBrackets with
  | false => exact ⟨ts, hs, hd.toPostfix hb⟩
  | true => exact ⟨_, spells_parens hs, (IsPrimary.parens (hd.toUnion hn)).toPostfix⟩

theorem exists_spells_optional :
    ∃ ts, Spells (bracketed ty ty.print ++ "?").toList ts ∧ IsPostfix ts (optional ty.respelled) := by
  obtain ⟨ts, hs, hp⟩ := exists_spells_bracketed hn h
  have spelled : Spells ((bracketed ty ty.print).toList ++ ['?']) (ts ++ [.question]) :=
    hs.append_symbol (by decide) .nil
  exact ⟨_, by simpa using spelled, hp.suffix (.optional .nil)⟩

theorem exists_spells_printOperand :
    ∃ ts, Spells (printOperand ty).toList ts ∧ Conjuncts ts (asOperands ty) := by
  obtain ⟨ts, hs, hd⟩ := h
  rw [printOperand]
  cases hu : ty.isUnion with
  | true =>
    have single : asOperands ty = [ty.respelled] := by
      cases ty with
      | union tys => rfl
      | _ => cases hu
    rw [single]
    exact ⟨_, spells_parens hs, (IsPrimary.parens (hd.toUnion hn)).toPostfix.toConjuncts⟩
  | false =>
    refine ⟨ts, hs, ?_⟩
    cases ty with
    | union tys => cases hu
    | intersection tys => exact hd
    | _ => exact IsPostfix.toConjuncts hd

theorem exists_spells_alternative (hu : ty.isUnion = false) :
    ∃ ts, Spells ty.print.toList ts ∧ IsIntersection ts ty.respelled := by
  obtain ⟨ts, hs, hd⟩ := h
  exact ⟨ts, hs, hd.toIntersection hn hu⟩

end

/-- Where no member is `()`, or there are not two of them, a union is its members with bars between
them. -/
theorem print_union_of_ne {tys : List TypeExpr} (hl : ∀ ty, tys ≠ [ty, .nil])
    (hf : ∀ ty, tys ≠ [.nil, ty]) :
    print (.union tys) = String.intercalate "|" (tys.map print) := by
  rw [print, printAll_eq_map]
  · exact fun ty h => hl ty h
  · exact fun ty h => hf ty h

theorem alternation_respelled {first second : TypeExpr} {rest : List TypeExpr}
    (hf : ∀ ty, first :: second :: rest ≠ [.nil, ty]) :
    alternation first.respelled ((second :: rest).map respelled) =
      respelled (.union (first :: second :: rest)) := by
  have notNilFirst : isNilFirst (first :: second :: rest) = false := by
    unfold isNilFirst
    split
    · next ty h => exact absurd h (hf ty)
    · rfl
  rw [respelled_union_of_ne notNilFirst]
  rfl

/-- The text of a union of normal types. The two forms of a union of two with `()` are apart, since
they are written with a question mark. -/
theorem exists_spells_union {tys : List TypeExpr} (hl : 2 ≤ tys.length) (hd : tys.Nodup)
    (hu : ∀ ty ∈ tys, ty.isUnion = false) (hn : ∀ ty ∈ tys, Normal ty)
    (h : ∀ ty ∈ tys, ∃ ts, Spells ty.print.toList ts ∧ Denotes ts ty) :
    ∃ ts, Spells (print (.union tys)).toList ts ∧ IsUnion ts (respelled (.union tys)) := by
  by_cases hlast : ∃ ty, tys = [ty, .nil]
  · obtain ⟨ty, rfl⟩ := hlast
    have notNil : ty ≠ .nil := by simpa using hd
    obtain ⟨ts, hs, hp⟩ := exists_spells_optional (hn ty (.head _)) (h ty (.head _))
    refine ⟨ts, ?_, ?_⟩
    · have : ty.isNil = false := by
        cases ty <;> first | rfl | exact absurd rfl notNil
      rwa [print, this]
    · rw [respelled_union_of_ne]
      · exact hp.toIntersection.toUnion
      · cases ty <;> first | rfl | exact absurd rfl notNil
  by_cases hfirst : ∃ ty, tys = [.nil, ty]
  · obtain ⟨ty, rfl⟩ := hfirst
    have notNil : ty ≠ .nil := by
      rintro rfl
      simp at hd
    obtain ⟨ts, hs, hp⟩ := exists_spells_optional (hn ty (by simp)) (h ty (by simp))
    refine ⟨ts, ?_, hp.toIntersection.toUnion⟩
    rwa [print]
    rintro rfl
    exact notNil rfl
  · have hlast : ∀ ty, tys ≠ [ty, .nil] := fun ty e => hlast ⟨ty, e⟩
    have hfirst : ∀ ty, tys ≠ [.nil, ty] := fun ty e => hfirst ⟨ty, e⟩
    match tys, hl with
    | first :: second :: rest, _ =>
      obtain ⟨ts, tss, hs, hp, hr⟩ := exists_spells_intercalate separates_bar first (second :: rest)
        fun ty hty => exists_spells_alternative (hn ty hty) (h ty hty) (hu ty hty)
      have denoted := IsUnion.mk hp (alternatives_of_forall₂ (List.forall₂_map_right_iff.2 hr))
      refine ⟨_, ?_, alternation_respelled hfirst ▸ denoted⟩
      rwa [print_union_of_ne hlast hfirst]

/-- **The text of a normal type spells tokens that derive the type respelled.** -/
theorem exists_spells_print {ty : TypeExpr} (h : Normal ty) :
    ∃ ts, Spells ty.print.toList ts ∧ Denotes ts ty := by
  induction h with
  | builtin b => exact ⟨_, spells_name (isName_word b), (IsPrimary.builtin b).toPostfix⟩
  | nil =>
    have spelled : Spells ['(', ')'] [.openParen, .closeParen] :=
      .symbol (by decide) (.symbol (by decide) .nil)
    exact ⟨_, spelled, IsPrimary.nil.toPostfix⟩
  | @array ty hn ih =>
    obtain ⟨ts, hs, hp⟩ := exists_spells_bracketed hn ih
    have spelled : Spells ((bracketed ty ty.print).toList ++ ['[', ']'])
        (ts ++ [.openBracket, .closeBracket]) :=
      hs.append_symbol (by decide) (.symbol (by decide) .nil)
    exact ⟨_, by simpa [print] using spelled, hp.suffix (.array .nil)⟩
  | @map ty hn ih =>
    obtain ⟨ts, hs, hd⟩ := ih
    have name : IsName "map" := isName_of_all rfl rfl rfl
    have text : print (.map ty) = "map" ++ "<" ++ print ty ++ ">" := by rw [print]; rfl
    rw [text]
    exact ⟨_, spells_parameter name hs, (IsPrimary.map (hd.toUnion hn)).toPostfix⟩
  | @table ty hn ih =>
    obtain ⟨ts, hs, hd⟩ := ih
    have name : IsName "table" := isName_of_all rfl rfl rfl
    have text : print (.table ty) = "table" ++ "<" ++ print ty ++ ">" := by rw [print]; rfl
    rw [text]
    exact ⟨_, spells_parameter name hs, (IsPrimary.table (hd.toUnion hn)).toPostfix⟩
  | @tuple tys hne hn ih =>
    obtain ⟨first, rest, rfl⟩ := List.exists_cons_of_ne_nil hne
    have each : ∀ ty ∈ first :: rest, ∃ ts, Spells ty.print.toList ts ∧ IsUnion ts ty.respelled := by
      intro ty hty
      obtain ⟨ts, hs, hd⟩ := ih ty hty
      exact ⟨ts, hs, hd.toUnion (hn ty hty)⟩
    obtain ⟨ts, tss, hs, hf, hr⟩ := exists_spells_intercalate separates_comma first rest each
    have members := elements_of_forall₂ (List.forall₂_map_right_iff.2 hr)
    have denoted := (IsPrimary.tuple hf members).toPostfix
    rw [← List.append_assoc, ← List.map_cons, ← respelledAll_eq_map, ← respelled] at denoted
    rw [print, printAll_eq_map]
    exact ⟨_, spells_brackets hs, denoted⟩
  | union hl hd hu hn ih => exact exists_spells_union hl hd hu hn ih
  | @intersection tys hl hn ih =>
    obtain ⟨first, rest, rfl⟩ :=
      List.exists_cons_of_ne_nil (List.length_pos_iff.1 (Nat.lt_of_lt_of_le Nat.two_pos hl))
    obtain ⟨ts, tss, hs, hf, hr⟩ := exists_spells_intercalate separates_ampersand first rest
      fun ty hty => exists_spells_printOperand (hn ty hty) (ih ty hty)
    have denoted := hf.append (operands_of_forall₂ hr)
    rw [← List.flatMap_cons, ← respelledOperands_eq_flatMap] at denoted
    rw [print, printOperands_eq_map]
    exact ⟨_, hs, denoted⟩
  | named hn hk =>
    refine ⟨_, spells_name hn, IsPrimary.toPostfix (.named ?_ ?_ ?_)⟩
    · exact fun e => hk (.inl e)
    · exact fun e => hk (.inr (.inl e))
    · exact fun b e => hk (.inr (.inr ⟨b, e⟩))

/-- **The text of a normal type is read as the type respelled.** -/
theorem parse_print {ty : TypeExpr} (h : Normal ty) : parse ty.print = .ok ty.respelled := by
  obtain ⟨ts, hs, hd⟩ := exists_spells_print h
  exact parse_of_derives hs (hd.toUnion h)

/-- **What is read back from the text of a type.** The text of a type that was read is a type
expression. It is the same type if and only if no intersection in it is an operand of another and no
union in it has `()` as the first of two members. -/
theorem parse_print_of_parse {text : String} {ty : TypeExpr} (h : parse text = .ok ty) :
    parse ty.print = .ok ty.respelled ∧ (parse ty.print = .ok ty ↔ ty.isFaithful = true) := by
  have read := parse_print (normal_of_parse h)
  refine ⟨read, ?_⟩
  rw [read, Except.ok.injEq]
  exact respelled_eq_self_iff (normal_of_parse h)

/-- A text with brackets and question marks that is read back. -/
theorem parse_print_of_parse_nested :
    ∃ ty, parse "map<(A|B)[]?>|error" = .ok ty ∧ parse ty.print = .ok ty := by
  let ty : TypeExpr :=
    .union [.map (.union [.array (.union [.named "A", .named "B"]), .nil]), .builtin .error]
  have read : parse "map<(A|B)[]?>|error" = .ok ty := by decide +kernel
  exact ⟨ty, read, (parse_print_of_parse read).2.2 (by decide +kernel)⟩

/-- The place of `()` and the brackets around an inner intersection are lost. -/
theorem parse_print_ne :
    (∃ ty, parse "()|int" = .ok ty ∧ parse ty.print ≠ .ok ty) ∧
      ∃ ty, parse "(A & B) & C" = .ok ty ∧ parse ty.print ≠ .ok ty := by
  have nilFirst : parse "()|int" = .ok (.union [.nil, .builtin .int]) := by decide +kernel
  have nested : parse "(A & B) & C" =
      .ok (.intersection [.intersection [.named "A", .named "B"], .named "C"]) := by decide +kernel
  exact ⟨⟨_, nilFirst, by decide +kernel⟩, ⟨_, nested, by decide +kernel⟩⟩

end FunctionApp.TypeExpr
