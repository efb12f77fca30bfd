import FunctionApp.Proofs.TypeExpr.Members
import FunctionApp.Proofs.TypeExpr.Printing
import FunctionApp.Proofs.TypeExpr.Reduction
import Mathlib.Data.List.Induction

/-!
# Unions of normal types

Types are normal as they are read, and whatever is made of them stays so. `unionOf` flattens one
level only, which is enough: the members of a normal type are no unions. Hence a union inside a
union may be replaced by its members (`unionOf_nested`), and texts with bars between them denote one
type wherever brackets stand around some of them.
-/

namespace FunctionApp.TypeExpr

open Grammar

variable {ty r first next : TypeExpr} {types members parts rest more : List TypeExpr}
  {ts us : List Token} {a b : String}

/-! ## What is made of normal types -/

theorem normal_effective (h : Normal ty) (he : effective ty = .ok r) : Normal r := by
  refine effective_induction (P := fun ty r => Normal ty → Normal r) ?plain ?single ?union he h
  case plain => exact fun _ _ h => h
  case single =>
    intro members m r only ih h
    cases h with
    | intersection _ each => exact ih (each m (mem_of_filter_eq_singleton only))
  case union =>
    intro members parts ih h
    cases h with
    | union long _ _ each =>
      refine normal_unionOf ?_ fun part hp => ?_
      · have := ih.length_eq
        exact List.length_pos_iff.1 (by omega)
      · obtain ⟨m, hm, kept⟩ := exists_of_mem_forall₂ ih hp
        exact kept (each m hm)

/-! ## Members in the order in which they come first -/

theorem foldl_addMember_eq_eraseDups (types : List TypeExpr) :
    types.foldl addMember [] = types.eraseDups := by
  induction types using List.reverseRecOn with
  | nil => rfl
  | append_singleton types ty ih =>
    rw [List.foldl_concat, ih, List.eraseDups_append]
    by_cases h : ty ∈ types
    · rw [addMember_of_mem (List.mem_eraseDups.2 h)]
      simp [List.removeAll, h]
    · rw [addMember_of_not_mem (mt List.mem_eraseDups.1 h)]
      simp [List.removeAll, h, List.eraseDups_cons]

/-- Members that were put together before are added as if they came one by one. -/
theorem foldl_addMember_foldl_addMember (types members : List TypeExpr) :
    (types.foldl addMember []).foldl addMember members = types.foldl addMember members := by
  -- From the end, since it is the last type that is dropped if it occurs among those before it.
  induction types using List.reverseRecOn with
  | nil => rfl
  | append_singleton types ty ih =>
    rw [List.foldl_concat, List.foldl_concat]
    by_cases h : ty ∈ types.foldl addMember []
    · have there : ty ∈ types.foldl addMember members :=
        mem_foldl_addMember.2 (.inr (by simpa [mem_foldl_addMember] using h))
      rw [addMember_of_mem h, ih, addMember_of_mem there]
    · rw [addMember_of_not_mem h, List.foldl_concat, ih]

/-- The members of a union of normal types are those of the types, each where it comes first. -/
theorem unionMembers_unionOf (h : ∀ ty ∈ types, Normal ty) :
    (unionOf types).unionMembers = (types.flatMap unionMembers).eraseDups := by
  rw [unionOf, foldl_addMember_eq_eraseDups, unionMembers_ofMembers]
  intro m hm
  obtain ⟨ty, ht, hm⟩ := List.mem_flatMap.1 (List.mem_eraseDups.1 hm)
  exact ((normal_unionMembers (h ty ht)).2 m hm).1

/-- A union of normal types inside a union may be replaced by the types. -/
theorem unionOf_nested (before after : List TypeExpr) (h : ∀ ty ∈ types, Normal ty) :
    unionOf (before ++ unionOf types :: after) = unionOf (before ++ types ++ after) := by
  have inner := unionMembers_unionOf h
  rw [← foldl_addMember_eq_eraseDups] at inner
  rw [unionOf.eq_def (before ++ _), unionOf.eq_def (before ++ types ++ after)]
  simp only [List.flatMap_append, List.flatMap_cons, List.foldl_append, inner,
    foldl_addMember_foldl_addMember]

/-! ## Bars and brackets -/

theorem unionOf_of_normal (h : Normal ty) : unionOf [ty] = ty := by
  cases hu : ty.isUnion with
  | false => exact unionOf_singleton hu
  | true =>
    cases h with
    | @union members long distinct flat each =>
      have whole := unionOf_of_nodup long distinct flat
      rw [← whole]
      simpa using unionOf_nested [] [] each
    | _ => cases hu

theorem alternation_of_normal (h : Normal first) :
    alternation first more = unionOf (first :: more) := by
  unfold alternation
  split
  · next none => rw [none, unionOf_of_normal h]
  · rfl

/-- Two types with a bar between them are their union, though either may be one itself. -/
theorem isUnion_bar {second : TypeExpr} (hf : IsUnion ts first) (hs : IsUnion us second)
    (names : Named (ts ++ us)) : IsUnion (ts ++ .bar :: us) (unionOf [first, second]) := by
  obtain @⟨ts, tail, first, rest, hi, ha⟩ := hf
  obtain @⟨us, tail', next, others, hj, hb⟩ := hs
  simp only [named_append] at names
  obtain ⟨⟨namesFirst, namesRest⟩, namesNext, namesOthers⟩ := names
  have normalFirst := normal_intersection hi namesFirst
  have normalNext := normal_intersection hj namesNext
  have each : ∀ ty ∈ first :: rest, Normal ty :=
    List.forall_mem_cons.2 ⟨normalFirst, normal_alternatives ha namesRest⟩
  have each' : ∀ ty ∈ next :: others, Normal ty :=
    List.forall_mem_cons.2 ⟨normalNext, normal_alternatives hb namesOthers⟩
  -- The members of both stand in one alternation, as if no union were made of either.
  have joined := IsUnion.mk hi (ha.append (.cons hj hb))
  rw [alternation_of_normal normalFirst] at joined
  rw [alternation_of_normal normalFirst, alternation_of_normal normalNext]
  have flat : unionOf [unionOf (first :: rest), unionOf (next :: others)] =
      unionOf (first :: (rest ++ next :: others)) := by
    calc unionOf [unionOf (first :: rest), unionOf (next :: others)]
      _ = unionOf (first :: rest ++ [unionOf (next :: others)]) := unionOf_nested [] _ each
      _ = unionOf (first :: rest ++ (next :: others) ++ []) := unionOf_nested _ [] each'
      _ = unionOf (first :: (rest ++ next :: others)) := by simp
  rw [flat]
  simpa using joined

theorem parse_bar {first second : TypeExpr} (ha : parse a = .ok first) (hb : parse b = .ok second) :
    parse (a ++ "|" ++ b) = .ok (unionOf [first, second]) := by
  obtain ⟨ts, hs, hf⟩ := derives_of_parse ha
  obtain ⟨us, hs', hg⟩ := derives_of_parse hb
  have names : Named (ts ++ us) :=
    named_append.2 ⟨fun _ hn => isName_of_spells hs hn, fun _ hn => isName_of_spells hs' hn⟩
  have spelled : Spells (a.toList ++ '|' :: b.toList) (ts ++ .bar :: us) :=
    hs.append_symbol (by decide) hs'
  exact parse_of_derives (by simpa using spelled) (isUnion_bar hf hg names)

theorem parse_parens (h : parse a = .ok ty) : parse ("(" ++ a ++ ")") = .ok ty := by
  obtain ⟨ts, hs, hd⟩ := derives_of_parse h
  exact parse_of_derives (spells_parens hs) (IsPrimary.parens hd).toPostfix.toIntersection.toUnion

/-- **Types stay in normal form.** Every type that was read is normal, and the union of normal
types, the optional type, the type without `()`, the value part and the effective form of a normal
type are normal. A union of normal types inside a union stands for its members, the members come in
the order in which each is first met, and three texts with bars between them denote the same type
with brackets around the last two, around the first two, or around none. -/
theorem normal_kept :
    (∀ text ty, parse text = .ok ty → Normal ty) ∧
    (∀ types, types ≠ [] → (∀ ty ∈ types, Normal ty) → Normal (unionOf types)) ∧
    (∀ ty, Normal ty → Normal (optional ty) ∧
      (∀ r, ty.withoutNil = some r → Normal r) ∧ (∀ r, ty.valueType = some r → Normal r) ∧
      ∀ r, effective ty = .ok r → Normal r) ∧
    (∀ before types after, (∀ ty ∈ before ++ types ++ after, Normal ty) →
      unionOf (before ++ unionOf types :: after) = unionOf (before ++ types ++ after) ∧
      (unionOf (before ++ types ++ after)).unionMembers =
        ((before ++ types ++ after).flatMap unionMembers).eraseDups) ∧
    ∀ a b c A B C, parse a = .ok A → parse b = .ok B → parse c = .ok C →
      parse (a ++ "|(" ++ b ++ "|" ++ c ++ ")") = .ok (unionOf [A, B, C]) ∧
      parse ("(" ++ a ++ "|" ++ b ++ ")|" ++ c) = .ok (unionOf [A, B, C]) ∧
      parse (a ++ "|" ++ b ++ "|" ++ c) = .ok (unionOf [A, B, C]) := by
  refine ⟨fun _ _ => normal_of_parse, fun _ => normal_unionOf, fun ty h => ?made,
    fun before types after h => ?nested, fun a b c A B C ha hb hc => ?read⟩
  case made =>
    exact ⟨normal_optional h, fun _ => normal_withoutNil h, fun _ => normal_valueType h,
      fun _ => normal_effective h⟩
  case nested =>
    refine ⟨unionOf_nested before after fun ty ht => h ty ?_, unionMembers_unionOf h⟩
    exact List.mem_append_left _ (List.mem_append_right _ ht)
  case read =>
    have normalA := normal_of_parse ha
    have normalB := normal_of_parse hb
    have normalC := normal_of_parse hc
    have last : unionOf [A, unionOf [B, C]] = unionOf [A, B, C] :=
      unionOf_nested [A] [] (by simp [normalB, normalC])
    have front : unionOf [unionOf [A, B], C] = unionOf [A, B, C] :=
      unionOf_nested [] [C] (by simp [normalA, normalB])
    have inLast := parse_bar ha (parse_parens (parse_bar hb hc))
    have inFront := parse_bar (parse_parens (parse_bar ha hb)) hc
    have inNone := parse_bar (parse_bar ha hb) hc
    rw [last] at inLast
    rw [front] at inFront inNone
    refine ⟨?_, ?_, inNone⟩
    · convert inLast using 2
      simp [← String.toList_inj]
    · convert inFront using 2
      simp [← String.toList_inj]

theorem normal_kept_bars :
    let members : List TypeExpr := [.named "A", .nil, .named "B"]
    parse "A?|(B|A)" = .ok (.union members) ∧ Normal (.union members) := by
  have first : parse "A?" = .ok (.union [.named "A", .nil]) := by decide +kernel
  have second : parse "B" = .ok (.named "B") := by decide +kernel
  have third : parse "A" = .ok (.named "A") := by decide +kernel
  obtain ⟨read, -, -, -, bars⟩ := normal_kept
  have whole : parse "A?|(B|A)" = .ok (.union [.named "A", .nil, .named "B"]) :=
    (bars _ _ _ _ _ _ first second third).1
  exact ⟨whole, read _ _ whole⟩

end FunctionApp.TypeExpr
