import FunctionApp.Handler.Route
import FunctionApp.Program.Reader
import FunctionApp.Proofs.Text.Split
import Mathlib.Data.List.Basic

/-!
# Reading the placeholders of a route back

The text of a route shows its placeholders in braces, and reading them back gives the tokens that
the check of the route looks at, as long as the literal segments show none and the names of rest
parameters have no slash in them (`Route.read_back_iff`). For what is read of a segment has no
slash, and a segment can only show more than its placeholder.
-/

namespace FunctionApp

/-- The placeholder that a segment of a route shows, if it is in braces: its token, and whether it
takes all further segments. -/
def readPlaceholder? (segment : String) : Option (String × Bool) :=
  (Program.bracedName? segment).map fun inner =>
    match inner.toList with
    | '*' :: name => (String.ofList name, true)
    | _ => (inner, false)

/-- The placeholders that the text of a route shows. -/
def readPlaceholders (path : String) : List (String × Bool) :=
  (Text.splitOnChar '/' path).filterMap readPlaceholder?

/-! ## Braces -/

theorem Program.bracedName?_eq_some_iff {text inner : String} :
    bracedName? text = some inner ↔ text.toList = '\x7b' :: (inner.toList ++ ['\x7d']) := by
  unfold bracedName?
  split
  · next rest braces =>
    rw [braces, List.cons_inj_right]
    split
    · next last =>
      obtain ⟨before, rfl⟩ := List.getLast?_eq_some_iff.1 last
      rw [Option.some_inj, ← String.toList_inj, String.toList_ofList, List.dropLast_concat]
      exact (List.append_left_inj _).symm
    · next last =>
      refine iff_of_false nofun fun whole => last ?_
      rw [whole, List.getLast?_concat]
  · next other =>
    refine iff_of_false nofun fun braces => ?_
    exact other _ braces

theorem readPlaceholder?_of_bracedName? {segment inner : String}
    (h : Program.bracedName? segment = some inner) :
    readPlaceholder? segment = some (match inner.toList with
      | '*' :: name => (String.ofList name, true)
      | _ => (inner, false)) := by
  rw [readPlaceholder?, h]
  rfl

/-- A token in braces is read back, with the star of a rest parameter before it. -/
theorem readPlaceholder?_placeholder {p : RouteParam}
    (plain : p.rest = false → p.token.toList.head? ≠ some '*') :
    readPlaceholder? (RouteSegment.placeholder p).text = some (p.token, p.rest) := by
  obtain ⟨token, type, rest⟩ := p
  cases rest with
  | true =>
    have inner : Program.bracedName? (RouteSegment.placeholder ⟨token, type, true⟩).text =
        some (String.ofList ('*' :: token.toList)) := by
      rw [Program.bracedName?_eq_some_iff]
      simp [RouteSegment.text]
    simp [readPlaceholder?_of_bracedName? inner]
  | false =>
    have inner : Program.bracedName? (RouteSegment.placeholder ⟨token, type, false⟩).text =
        some token := by
      rw [Program.bracedName?_eq_some_iff]
      simp [RouteSegment.text]
    rw [readPlaceholder?_of_bracedName? inner]
    split
    · next name starred =>
      have first := plain rfl
      rw [starred] at first
      exact absurd rfl first
    · rfl

/-- What is read is part of a segment, so it has no slash. -/
theorem not_mem_of_mem_readPlaceholders {path token : String} {rest : Bool}
    (h : (token, rest) ∈ readPlaceholders path) : '/' ∉ token.toList := by
  obtain ⟨segment, mem, read⟩ := List.mem_filterMap.1 h
  obtain ⟨inner, braces, shown⟩ := Option.map_eq_some_iff.1 read
  have slash := Text.not_mem_of_mem_splitOnChar mem
  rw [Program.bracedName?_eq_some_iff.1 braces] at slash
  have clean : '/' ∉ inner.toList := fun within => slash (by simp [within])
  split at shown
  · next name starred =>
    obtain ⟨rfl, -⟩ := Prod.mk.inj shown
    rw [starred] at clean
    simpa using List.not_mem_of_not_mem_cons clean
  · obtain ⟨rfl, -⟩ := Prod.mk.inj shown
    exact clean

/-! ## Joined segments -/

theorem readPlaceholders_intercalate (texts : List String) :
    readPlaceholders (String.intercalate "/" texts) = texts.flatMap readPlaceholders := by
  by_cases none : texts = []
  · subst none
    decide +kernel
  · rw [readPlaceholders, Text.splitOnChar_intercalate none, List.filterMap_flatMap]
    rfl

theorem readPlaceholders_of_not_mem {segment : String} (h : '/' ∉ segment.toList) :
    readPlaceholders segment = (readPlaceholder? segment).toList := by
  rw [readPlaceholders, Text.splitOnChar_of_not_mem h]
  cases hs : readPlaceholder? segment <;> simp [hs]

section Lists

variable {α β : Type} {f g : α → List β} {as : List α}

theorem length_flatMap_le (h : ∀ a ∈ as, f a = g a ∨ g a = []) :
    (as.flatMap g).length ≤ (as.flatMap f).length := by
  induction as with
  | nil => exact Nat.le_refl 0
  | cons a as ih =>
    obtain ⟨first, others⟩ := List.forall_mem_cons.1 h
    have rest := ih others
    rw [List.flatMap_cons, List.flatMap_cons, List.length_append, List.length_append]
    rcases first with equal | none
    · rw [equal]
      omega
    · rw [none, List.length_nil]
      omega

/-- Lists put together from parts that are at least those of another one are equal to it just if the
parts are. -/
theorem flatMap_eq_flatMap_iff (h : ∀ a ∈ as, f a = g a ∨ g a = []) :
    as.flatMap f = as.flatMap g ↔ ∀ a ∈ as, f a = g a := by
  constructor
  · intro same
    induction as with
    | nil => nofun
    | cons a as ih =>
      obtain ⟨first, others⟩ := List.forall_mem_cons.1 h
      rw [List.flatMap_cons, List.flatMap_cons] at same
      have head : f a = g a := by
        rcases first with equal | none
        · exact equal
        · rw [none, List.nil_append] at same
          have long := length_flatMap_le others
          have sum := congrArg List.length same
          rw [List.length_append] at sum
          rw [none, List.eq_nil_iff_length_eq_zero]
          omega
      rw [head, List.append_cancel_left_eq] at same
      exact List.forall_mem_cons.2 ⟨head, ih others same⟩
  · intro same
    rw [List.flatMap_def, List.flatMap_def, List.map_congr_left same]

end Lists

/-! ## The segments of a route -/

theorem isIdentifierChar_of_isIdentifier {name : String} (h : isIdentifier name = true) :
    ∀ c ∈ name.toList, isIdentifierChar c = true := by
  unfold isIdentifier at h
  split at h
  · cases h
  · next c rest chars =>
    rw [Bool.and_eq_true, List.all_eq_true] at h
    rw [chars]
    refine List.forall_mem_cons.2 ⟨?_, h.2⟩
    rcases Bool.or_eq_true_iff.1 h.1 with letter | underscore
    · rw [isIdentifierChar, Char.isAlphanum, letter]
      rfl
    · rw [isIdentifierChar, underscore, Bool.or_true]

namespace RouteSegment

/-- The placeholder of a segment as the text of the route should show it. -/
def shown (segment : RouteSegment) : List (String × Bool) :=
  (segment.param?.map fun p => (p.token, p.rest)).toList

/-- The tokens of parameters are identifiers or numbers. -/
theorem isIdentifierChar_token (position : Nat) (name : Option String) (type : TypeExpr) :
    ∃ token, ofPath position (.param name type) = .placeholder ⟨token, type, false⟩ ∧
      ∀ c ∈ token.toList, isIdentifierChar c = true := by
  have number : ∀ c ∈ (toString position).toList, isIdentifierChar c = true := by
    intro c mem
    rw [Nat.toString_eq_repr, Nat.toList_repr] at mem
    have digit := Nat.isDigit_of_mem_toDigits (by decide) (by decide) mem
    rw [isIdentifierChar, Char.isAlphanum, digit, Bool.or_true]
    rfl
  cases name with
  | none => exact ⟨_, rfl, number⟩
  | some name =>
    cases word : isIdentifier name with
    | true =>
      refine ⟨name, ?_, isIdentifierChar_of_isIdentifier word⟩
      rw [ofPath, if_pos word]
    | false =>
      refine ⟨toString position, ?_, number⟩
      rw [ofPath, if_neg (by simp [word])]

/-- A placeholder whose token has no slash is read back, with the star of a rest parameter. -/
theorem readPlaceholders_placeholder {p : RouteParam} (slash : '/' ∉ p.token.toList)
    (plain : p.rest = false → p.token.toList.head? ≠ some '*') :
    readPlaceholders (placeholder p).text = [(p.token, p.rest)] := by
  have whole : '/' ∉ (placeholder p).text.toList := by
    rw [text]
    split <;> simp [slash]
  rw [readPlaceholders_of_not_mem whole, readPlaceholder?_placeholder plain]
  rfl

end RouteSegment

namespace PathSegment

/-- Whether a segment of a handler's path is read back from the text of a route as it should be. -/
def IsReadBack : PathSegment → Prop
  | .literal text => readPlaceholders text = []
  | .param .. => True
  | .rest name _ => '/' ∉ name.toList

theorem isReadBack_iff (position : Nat) (segment : PathSegment) : segment.IsReadBack ↔
    readPlaceholders (RouteSegment.ofPath position segment).text =
      (RouteSegment.ofPath position segment).shown := by
  cases segment with
  | literal text => rfl
  | param name type =>
    obtain ⟨token, made, chars⟩ := RouteSegment.isIdentifierChar_token position name type
    refine iff_of_true trivial ?_
    rw [made]
    apply RouteSegment.readPlaceholders_placeholder
    · intro slash
      exact absurd (chars '/' slash) (by decide)
    · intro _ star
      exact absurd (chars '*' (List.mem_of_head? star)) (by decide)
  | rest name type =>
    constructor
    · intro slash
      exact RouteSegment.readPlaceholders_placeholder slash nofun
    · intro same
      have there : (name, true) ∈ (RouteSegment.ofPath position (.rest name type)).shown :=
        List.mem_singleton_self _
      rw [← same] at there
      exact not_mem_of_mem_readPlaceholders there

/-- A segment is read back or, as a literal, should not be read, if no slash is in its token. -/
theorem read_or_shown_eq_nil (position : Nat) (segment : PathSegment)
    (slash : ∀ p ∈ (RouteSegment.ofPath position segment).shown, '/' ∉ p.1.toList) :
    readPlaceholders (RouteSegment.ofPath position segment).text =
        (RouteSegment.ofPath position segment).shown ∨
      (RouteSegment.ofPath position segment).shown = [] := by
  rw [← isReadBack_iff]
  cases segment with
  | literal text => exact .inr rfl
  | param name type => exact .inl trivial
  | rest name type => exact .inl (slash (name, true) (List.mem_singleton_self _))

end PathSegment

namespace Route

theorem check_eq_ok_iff {route : Route} :
    route.check = .ok () ↔ (route.params.map (·.token)).Nodup := by
  rw [← Text.firstRepeated?_eq_none_iff, check]
  split
  · next token again => simp [again]
  · next none => simp [none]

theorem shown_params (route : Route) :
    route.params.map (fun p => (p.token, p.rest)) = route.segments.flatMap RouteSegment.shown := by
  rw [params, List.map_filterMap, List.filterMap_eq_flatMap_toList]
  rfl

theorem readPlaceholders_path (route : Route) :
    readPlaceholders route.path = route.segments.flatMap fun s => readPlaceholders s.text := by
  rw [path, readPlaceholders_intercalate, List.flatMap_map]

theorem forall_mem_build {P : RouteSegment → Prop} {base : List String}
    {relative : List PathSegment} : (∀ s ∈ (build base relative).segments, P s) ↔
      (∀ text ∈ base, P (.literal text)) ∧
        ∀ x ∈ relative.zipIdx base.length, P (.ofPath x.2 x.1) := by
  rw [build, List.forall_mem_append, List.forall_mem_map, List.forall_mem_map]

/-- **The placeholders of a route are read back** just if each segment is as it should be. -/
theorem read_back_iff (base : List String) (relative : List PathSegment) :
    readPlaceholders (build base relative).path =
        (build base relative).params.map (fun p => (p.token, p.rest)) ↔
      (∀ text ∈ base, readPlaceholders text = []) ∧ ∀ s ∈ relative, s.IsReadBack := by
  have segments : (∀ s ∈ (build base relative).segments, readPlaceholders s.text = s.shown) ↔
      (∀ text ∈ base, readPlaceholders text = []) ∧ ∀ s ∈ relative, s.IsReadBack := by
    rw [forall_mem_build]
    have paired : (∀ s ∈ relative, s.IsReadBack) ↔
        ∀ x ∈ relative.zipIdx base.length, x.1.IsReadBack := by
      have mapped := List.forall_mem_map (f := Prod.fst) (l := relative.zipIdx base.length)
        (P := PathSegment.IsReadBack)
      rwa [List.zipIdx_map_fst] at mapped
    rw [paired]
    refine and_congr_right fun _ => forall₂_congr fun x _ => ?_
    exact (PathSegment.isReadBack_iff x.2 x.1).symm
  rw [← segments, readPlaceholders_path, shown_params]
  constructor
  · intro same
    -- What is read has no slash, so all rest parameters can be read, and only more can be read.
    have slash : ∀ s ∈ (build base relative).segments, ∀ p ∈ s.shown, '/' ∉ p.1.toList := by
      intro s hs p hp
      have there := List.mem_flatMap.2 ⟨s, hs, hp⟩
      rw [← same, ← readPlaceholders_path] at there
      exact not_mem_of_mem_readPlaceholders there
    rw [forall_mem_build] at slash
    apply (flatMap_eq_flatMap_iff _).1 same
    rw [forall_mem_build]
    refine ⟨fun text _ => .inr rfl, fun x hx => ?_⟩
    exact PathSegment.read_or_shown_eq_nil x.2 x.1 (slash.2 x hx)
  · intro each
    rw [List.flatMap_def, List.flatMap_def, List.map_congr_left each]

end Route

end FunctionApp
