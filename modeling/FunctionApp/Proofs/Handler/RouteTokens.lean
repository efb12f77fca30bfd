import FunctionApp.Proofs.Handler.Route
import FunctionApp.Proofs.Handler.RouteText
import FunctionApp.Proofs.Text.Numerals
import Mathlib.Data.List.Forall2

/-!
# The tokens of a route

Each segment of a handler's path becomes a segment of the route with a label and, if it is a
parameter, a placeholder with a token (`PathSegment.Becomes`). A parameter that is no identifier has
its position for a token. No other parameter has the same one, since no identifier is a number, and
only a rest parameter may be named like one. The check of a route finds the first placeholder whose
token stands before it, so that it refuses a path without rest parameters just if two parameters
carry the same identifier (`Route.tokens_told_apart`).
-/

namespace FunctionApp

/-! ## Numbers and identifiers -/

theorem isIdentifierStart_eq_false_of_isDigit {c : Char} (h : c.isDigit = true) :
    isIdentifierStart c = false := by
  have digits : ∀ k : Fin 10, isIdentifierStart (Nat.digitChar k) = false := by decide
  obtain ⟨small, written⟩ := Text.digitChar_of_isDigit h
  rw [← written]
  exact digits ⟨_, small⟩

/-- No number is an identifier. -/
theorem isIdentifier_toString (n : Nat) : isIdentifier (toString n) = false := by
  unfold isIdentifier
  split
  · rfl
  · next c rest chars =>
    have digit : c ∈ Nat.toDigits 10 n := by
      rw [Nat.toString_eq_repr, Nat.toList_repr] at chars
      rw [chars]
      exact List.mem_cons_self
    have isDigit := Nat.isDigit_of_mem_toDigits (by decide) (by decide) digit
    rw [isIdentifierStart_eq_false_of_isDigit isDigit, Bool.false_and]

/-! ## What a segment becomes -/

namespace PathSegment

def isRest : PathSegment → Bool
  | .rest .. => true
  | _ => false

/-- What a segment of a handler's path becomes at a position of the route: its label, and its
placeholder if it has one. -/
inductive Becomes (position : Nat) : PathSegment → String → Option RouteParam → Prop where
  | literal {text : String} : Becomes position (.literal text) text none
  | named {name : String} {type : TypeExpr} : isIdentifier name = true →
      Becomes position (.param (some name) type) name (some ⟨name, type, false⟩)
  | numbered {name : Option String} {type : TypeExpr} : (∀ n ∈ name, isIdentifier n = false) →
      Becomes position (.param name type) (toString position)
        (some ⟨toString position, type, false⟩)
  | rest {name : String} {type : TypeExpr} :
      Becomes position (.rest name type) name (some ⟨name, type, true⟩)

variable {s t : PathSegment} {m n : Nat} {label other : String} {p q : RouteParam}

theorem becomes_ofPath (position : Nat) (s : PathSegment) :
    s.Becomes position (RouteSegment.ofPath position s).label
      (RouteSegment.ofPath position s).param? := by
  cases s with
  | literal text => exact .literal
  | rest name type => exact .rest
  | param name type =>
    cases name with
    | none => exact .numbered (by simp)
    | some name =>
      cases word : isIdentifier name with
      | true =>
        rw [RouteSegment.ofPath, if_pos word]
        exact .named word
      | false =>
        rw [RouteSegment.ofPath, if_neg (by simp [word])]
        exact .numbered (by simpa using word)

/-- The token of a parameter is an identifier if it is not its position. -/
theorem Becomes.token_cases (h : s.Becomes m label (some p)) (parameter : s.isRest = false) :
    (isIdentifier p.token = true ∧ ∃ type, s = .param (some p.token) type) ∨
      p.token = toString m := by
  cases h with
  | named word => exact .inl ⟨word, _, rfl⟩
  | numbered => exact .inr rfl
  | rest => cases parameter

/-- Parameters at different positions share no token but an identifier that both carry. -/
theorem Becomes.shared_token (hs : s.Becomes m label (some p)) (ht : t.Becomes n other (some q))
    (first : s.isRest = false) (second : t.isRest = false) (apart : m ≠ n)
    (same : p.token = q.token) :
    isIdentifier p.token = true ∧ (∃ type, s = .param (some p.token) type) ∧
      ∃ type, t = .param (some p.token) type := by
  rcases hs.token_cases first with ⟨word, named⟩ | number
  · refine ⟨word, named, ?_⟩
    rcases ht.token_cases second with ⟨-, named⟩ | number
    · rwa [same]
    · rw [same, number, isIdentifier_toString] at word
      cases word
  · rcases ht.token_cases second with ⟨word, -⟩ | number'
    · rw [← same, number, isIdentifier_toString] at word
      cases word
    · rw [number, number'] at same
      exact absurd (Text.repr_injective same) apart

theorem Becomes.isRest (h : s.Becomes m label (some p)) : s.isRest = p.rest := by
  cases h <;> rfl

/-- Parameters of one identifier have it for their token, wherever they stand. -/
theorem Becomes.token_of_identifier {name : String} {type : TypeExpr}
    {placeholder : Option RouteParam} (word : isIdentifier name = true)
    (h : (PathSegment.param (some name) type).Becomes m label placeholder) :
    ∃ p, placeholder = some p ∧ p.token = name := by
  cases h with
  | named => exact ⟨_, rfl, rfl⟩
  | numbered noWord => simp [word] at noWord

end PathSegment

/-! ## The check of a route -/

namespace Route

open PathSegment

variable {base : List String} {relative : List PathSegment} {route : Route} {problem : Problem}

/-- **The check of a route reports the first placeholder whose token stands before it.** -/
theorem check_eq_error_iff : route.check = .error problem ↔
    ∃ before p after, route.params = before ++ p :: after ∧ (before.map (·.token)).Nodup ∧
      p.token ∈ before.map (·.token) ∧ problem = .duplicatePathParam route.path p.token := by
  have found {token : String} : Text.firstRepeated? (route.params.map (·.token)) = some token ↔
      ∃ before p after, route.params = before ++ p :: after ∧ (before.map (·.token)).Nodup ∧
        p.token ∈ before.map (·.token) ∧ token = p.token := by
    rw [Text.firstRepeated?_eq_some_iff]
    constructor
    · rintro ⟨tokens, others, split, nodup, again⟩
      obtain ⟨before, rest, whole, rfl, tail⟩ := List.map_eq_append_iff.1 split
      obtain ⟨p, after, rfl, rfl, -⟩ := List.map_eq_cons_iff.1 tail
      exact ⟨before, p, after, whole, nodup, again, rfl⟩
    · rintro ⟨before, p, after, whole, nodup, again, rfl⟩
      exact ⟨_, after.map (·.token), by rw [whole, List.map_append, List.map_cons], nodup, again⟩
  unfold check
  split
  · next token again =>
    rw [Except.error.injEq]
    obtain ⟨before, p, after, whole, nodup, mem, rfl⟩ := found.1 again
    constructor
    · rintro rfl
      exact ⟨before, p, after, whole, nodup, mem, rfl⟩
    · rintro ⟨before', p', after', whole', nodup', mem', rfl⟩
      have first := found.2 ⟨before', p', after', whole', nodup', mem', rfl⟩
      rw [again, Option.some_inj] at first
      rw [first]
  · next none =>
    refine iff_of_false nofun ?_
    rintro ⟨before, p, after, whole, nodup, mem, -⟩
    have first := found.2 ⟨before, p, after, whole, nodup, mem, rfl⟩
    rw [none] at first
    cases first

/-- The labels and the placeholders of a route are what the segments of its path become. -/
theorem becomes_build (base : List String) (relative : List PathSegment) :
    ∃ own : List (String × Option RouteParam),
      List.Forall₂ (fun x y => x.1.Becomes x.2 y.1 y.2) (relative.zipIdx base.length) own ∧
        (build base relative).labels = base ++ own.map (·.1) ∧
        (build base relative).params = own.filterMap (·.2) := by
  refine ⟨(relative.zipIdx base.length).map fun x =>
    ((RouteSegment.ofPath x.2 x.1).label, (RouteSegment.ofPath x.2 x.1).param?), ?_, ?_, ?_⟩
  · rw [List.forall₂_map_right_iff, List.forall₂_same]
    exact fun x _ => becomes_ofPath x.2 x.1
  · rw [labels, build, List.map_append, List.map_map, List.map_map, List.map_map]
    congr 1
    exact List.map_id _
  · rw [params_build, List.filterMap_map, List.filterMap_map]
    rfl

/-! ## Repeated tokens -/

theorem pairwise_iff_getElem? {α : Type} {R : α → α → Prop} {as : List α} :
    as.Pairwise R ↔ ∀ (i j : Nat) (a b : α), i < j → as[i]? = some a → as[j]? = some b → R a b := by
  rw [List.pairwise_iff_getElem]
  constructor
  · intro h i j a b before ha hb
    obtain ⟨hi, rfl⟩ := List.getElem?_eq_some_iff.1 ha
    obtain ⟨hj, rfl⟩ := List.getElem?_eq_some_iff.1 hb
    exact h i j hi hj before
  · intro h i j hi hj before
    exact h i j _ _ before (List.getElem?_eq_getElem hi) (List.getElem?_eq_getElem hj)

/-- What holds of any two placeholders is told by the segments that they come from. -/
theorem pairwise_params_iff {R : RouteParam → RouteParam → Prop} :
    (build base relative).params.Pairwise R ↔
      ∀ (i j : Nat) (s t : PathSegment), i < j → relative[i]? = some s → relative[j]? = some t →
        ∀ p, (RouteSegment.ofPath (base.length + i) s).param? = some p →
        ∀ q, (RouteSegment.ofPath (base.length + j) t).param? = some q → R p q := by
  rw [params_build, List.filterMap_map, List.pairwise_filterMap, pairwise_iff_getElem?]
  simp only [List.getElem?_zipIdx, Option.map_eq_some_iff, Function.comp_apply]
  constructor
  · intro h i j s t before hs ht
    exact h i j _ _ before ⟨s, hs, rfl⟩ ⟨t, ht, rfl⟩
  · rintro h i j _ _ before ⟨s, hs, rfl⟩ ⟨t, ht, rfl⟩
    exact h i j s t before hs ht

theorem exists_check_eq_error_iff_not_pairwise :
    (∃ problem, route.check = .error problem) ↔
      ¬route.params.Pairwise fun p q => p.token ≠ q.token := by
  rw [← List.pairwise_map, ← List.Nodup, ← check_eq_ok_iff]
  cases route.check with
  | error problem => simp
  | ok _ => simp

theorem exists_check_eq_error_iff : (∃ problem, route.check = .error problem) ↔
    ∃ (i j : Nat) (p q : RouteParam), i < j ∧ route.params[i]? = some p ∧
      route.params[j]? = some q ∧ p.token = q.token := by
  rw [exists_check_eq_error_iff_not_pairwise, pairwise_iff_getElem?]
  simp only [not_forall, exists_prop, Decidable.not_not]

/-- **A token is shared** only if it is an identifier or the name of a rest parameter. -/
theorem pairwise_apart (base : List String) (relative : List PathSegment) :
    (build base relative).params.Pairwise fun p q => p.token = q.token →
      isIdentifier p.token = true ∨ p.rest = true ∨ q.rest = true := by
  rw [pairwise_params_iff]
  intro i j s t before _ _ p hp q hq same
  have hs := becomes_ofPath (base.length + i) s
  have ht := becomes_ofPath (base.length + j) t
  rw [hp] at hs
  rw [hq] at ht
  rw [← hs.isRest, ← ht.isRest]
  cases first : s.isRest with
  | true => exact .inr (.inl rfl)
  | false =>
    cases second : t.isRest with
    | true => exact .inr (.inr rfl)
    | false => exact .inl (hs.shared_token ht first second (by omega) same).1

/-- Without rest parameters the check fails just where two parameters carry one identifier. -/
theorem exists_check_eq_error_iff_of_not_isRest (parameters : ∀ s ∈ relative, s.isRest = false) :
    (∃ problem, (build base relative).check = .error problem) ↔
      ∃ (i j : Nat) (name : String), i < j ∧ isIdentifier name = true ∧
        (∃ type, relative[i]? = some (.param (some name) type)) ∧
        ∃ type, relative[j]? = some (.param (some name) type) := by
  rw [exists_check_eq_error_iff_not_pairwise, pairwise_params_iff]
  constructor
  · intro shared
    simp only [not_forall, exists_prop, Decidable.not_not] at shared
    obtain ⟨i, j, s, t, before, hi, hj, p, hp, q, hq, same⟩ := shared
    have hs := becomes_ofPath (base.length + i) s
    have ht := becomes_ofPath (base.length + j) t
    rw [hp] at hs
    rw [hq] at ht
    obtain ⟨word, ⟨type, rfl⟩, type', rfl⟩ := hs.shared_token ht
      (parameters s (List.mem_of_getElem? hi)) (parameters t (List.mem_of_getElem? hj))
      (by omega) same
    exact ⟨i, j, p.token, before, word, ⟨type, hi⟩, type', hj⟩
  · rintro ⟨i, j, name, before, word, ⟨type, hi⟩, type', hj⟩ apart
    obtain ⟨p, hp, rfl⟩ := (becomes_ofPath (base.length + i) _).token_of_identifier word
    obtain ⟨q, hq, same⟩ := (becomes_ofPath (base.length + j) _).token_of_identifier word
    exact apart i j _ _ before hi hj p hp q hq same.symm

/-- **The tokens of a route are told apart.** Every segment of a handler's path becomes a label and,
if it is a parameter, a placeholder, where a parameter that is no identifier has its position in the
whole route for a token. The check fails just if two placeholders share their token, and reports the
first one whose token stands before. Only identifiers and the names of rest parameters are shared, so
that without rest parameters the check fails just if two parameters carry the same identifier. -/
theorem tokens_told_apart (base : List String) (relative : List PathSegment) :
    let route := build base relative
    (∃ own : List (String × Option RouteParam),
      List.Forall₂ (fun x y => x.1.Becomes x.2 y.1 y.2) (relative.zipIdx base.length) own ∧
        route.labels = base ++ own.map (·.1) ∧ route.params = own.filterMap (·.2)) ∧
    ((∃ problem, route.check = .error problem) ↔
      ∃ (i j : Nat) (p q : RouteParam), i < j ∧ route.params[i]? = some p ∧
        route.params[j]? = some q ∧ p.token = q.token) ∧
    (∀ problem, route.check = .error problem ↔
      ∃ before p after, route.params = before ++ p :: after ∧ (before.map (·.token)).Nodup ∧
        p.token ∈ before.map (·.token) ∧
        problem = .duplicatePathParam route.path p.token) ∧
    (route.params.Pairwise fun p q => p.token = q.token →
      isIdentifier p.token = true ∨ p.rest = true ∨ q.rest = true) ∧
    ((∀ s ∈ relative, s.isRest = false) →
      ((∃ problem, route.check = .error problem) ↔
        ∃ (i j : Nat) (name : String), i < j ∧ isIdentifier name = true ∧
          (∃ type, relative[i]? = some (.param (some name) type)) ∧
          ∃ type, relative[j]? = some (.param (some name) type))) :=
  ⟨becomes_build base relative, exists_check_eq_error_iff, fun _ => check_eq_error_iff,
    pairwise_apart base relative, exists_check_eq_error_iff_of_not_isRest⟩

/-- A rest parameter may have the position of another parameter for a name. -/
example : (build ["orders"] [.param none (.builtin .int), .rest "1" (.builtin .string)]).check =
    .error (.duplicatePathParam "orders/\x7b1\x7d/\x7b*1\x7d" "1") := by
  decide +kernel

/-- Two parameters without a name and two of one name. -/
def linePath : List PathSegment :=
  [.param none (.builtin .int), .literal "lines", .param (some "x-y") (.builtin .string),
    .param (some "id") (.builtin .int), .param (some "id") (.builtin .string)]

theorem tokens_told_apart_lines :
    (∀ s ∈ linePath, s.isRest = false) ∧
      ∃ problem, (build ["orders"] linePath).check = .error problem ∧
        problem = .duplicatePathParam
          "orders/\x7b1\x7d/lines/\x7b3\x7d/\x7bid\x7d/\x7bid\x7d" "id" := by
  have parameters : ∀ s ∈ linePath, s.isRest = false := by decide
  obtain ⟨-, -, reported, -, failed⟩ := tokens_told_apart ["orders"] linePath
  obtain ⟨problem, found⟩ := (failed parameters).2
    ⟨3, 4, "id", by decide, by decide +kernel, ⟨.builtin .int, rfl⟩, .builtin .string, rfl⟩
  refine ⟨parameters, problem, found, ?_⟩
  have first := (reported _).2 ⟨[⟨"1", .builtin .int, false⟩, ⟨"3", .builtin .string, false⟩,
    ⟨"id", .builtin .int, false⟩], ⟨"id", .builtin .string, false⟩, [], by decide +kernel,
    by decide +kernel, by decide +kernel, rfl⟩
  rw [found, Except.error.injEq] at first
  rw [first]
  decide +kernel

end Route

end FunctionApp
