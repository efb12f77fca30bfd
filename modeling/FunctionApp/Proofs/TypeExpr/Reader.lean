import FunctionApp.Proofs.Results
import FunctionApp.Proofs.TypeExpr.Grammar
import FunctionApp.TypeExpr.Parser

/-!
# The steps of the reader

What each function of the reader takes and leaves (`taken`), without the bound that it returns with
it: one equation for each production of the grammar.
-/

namespace FunctionApp.TypeExpr

open Grammar

/-- What a reader gives and what it leaves, without the bound on what it leaves. -/
def taken {α : Type} {P : α × List Lexeme → Prop} (r : Except Stop { p // P p }) :
    Except Stop (α × List Lexeme) :=
  r.map Subtype.val

theorem length_lt_of_taken {α : Type} {ts rest : List Lexeme} {r : Read ts α} {a : α}
    (h : taken r = .ok (a, rest)) : rest.length < ts.length := by
  obtain ⟨⟨p, hp⟩, _, rfl⟩ := map_eq_ok.1 h
  exact hp

@[simp] theorem taken_ok {α : Type} {P : α × List Lexeme → Prop} (p : { p // P p }) :
    taken (.ok p : Except Stop { p // P p }) = .ok p.1 := rfl

@[simp] theorem taken_error {α : Type} {P : α × List Lexeme → Prop} (e : Stop) :
    taken (.error e : Except Stop { p // P p }) = .error e := rfl

/-- No token of the given kinds comes next. -/
def EndsAt (kinds : List Token) (ts : List Lexeme) : Prop := ∀ l ∈ ts.head?, l.token ∉ kinds

/-- A token comes next or it does not. -/
theorem exists_cons_or_endsAt (token : Token) (ts : List Lexeme) :
    (∃ o rest, ts = ⟨token, o⟩ :: rest) ∨ EndsAt [token] ts := by
  rcases ts with _ | ⟨⟨t, o⟩, rest⟩
  · exact .inr (by simp [EndsAt])
  · by_cases h : t = token
    · exact .inl ⟨o, rest, by rw [h]⟩
    · exact .inr (by simpa [EndsAt] using h)

theorem taken_expect_cons {token : Token} {l : Lexeme} (h : l.token = token) (c : Char)
    (rest : List Lexeme) : taken (expect token c (l :: rest)) = .ok ((), rest) := by
  rw [expect, if_pos h]
  rfl

theorem eq_cons_of_expect {token : Token} {c : Char} {ts rest : List Lexeme} {u : Unit}
    (h : taken (expect token c ts) = .ok (u, rest)) : ∃ l, ts = l :: rest ∧ l.token = token := by
  unfold expect at h
  split at h
  · cases h
  · next t more =>
    split at h
    · next ht =>
      cases h
      exact ⟨t, rfl, ht⟩
    · cases h

theorem taken_readUnion (ts : List Lexeme) :
    taken (readUnion ts) = (do
      let (first, rest) ← taken (readIntersection ts)
      let (more, rest) ← taken (readAlternatives rest)
      return (alternation first more, rest)) := by
  rw [readUnion]
  cases readIntersection ts with
  | error e => rfl
  | ok r =>
    obtain ⟨⟨first, rest⟩, h⟩ := r
    dsimp only
    show _ = taken (readAlternatives rest) >>= _
    cases readAlternatives rest with
    | error e => rfl
    | ok r => 
      obtain ⟨⟨_ | _, rest'⟩, h'⟩ := r <;> rfl

theorem taken_readAlternatives_bar (o : Nat) (ts : List Lexeme) :
    taken (readAlternatives (⟨.bar, o⟩ :: ts)) = (do
      let (ty, rest) ← taken (readIntersection ts)
      let (more, rest) ← taken (readAlternatives rest)
      return (ty :: more, rest)) := by
  rw [readAlternatives]
  cases readIntersection ts with
  | error e => rfl
  | ok r =>
    obtain ⟨⟨first, rest⟩, h⟩ := r
    dsimp only
    show _ = taken (readAlternatives rest) >>= _
    cases readAlternatives rest <;> rfl

theorem taken_readAlternatives_end {ts : List Lexeme} (h : EndsAt [.bar] ts) :
    taken (readAlternatives ts) = .ok ([], ts) := by
  rw [readAlternatives.eq_def]
  split
  · exact absurd (List.mem_singleton.2 rfl) (h _ rfl)
  · rfl

theorem taken_readIntersection (ts : List Lexeme) :
    taken (readIntersection ts) = (do
      let (first, rest) ← taken (readPostfix ts)
      let (more, rest) ← taken (readOperands rest)
      return (conjunction first more, rest)) := by
  rw [readIntersection]
  cases readPostfix ts with
  | error e => rfl
  | ok r =>
    obtain ⟨⟨first, rest⟩, h⟩ := r
    dsimp only
    show _ = taken (readOperands rest) >>= _
    cases readOperands rest with
    | error e => rfl
    | ok r => obtain ⟨⟨_ | _, rest'⟩, h'⟩ := r <;> rfl

theorem taken_readOperands_ampersand (o : Nat) (ts : List Lexeme) :
    taken (readOperands (⟨.ampersand, o⟩ :: ts)) = (do
      let (ty, rest) ← taken (readPostfix ts)
      let (more, rest) ← taken (readOperands rest)
      return (ty :: more, rest)) := by
  rw [readOperands]
  cases readPostfix ts with
  | error e => rfl
  | ok r =>
    obtain ⟨⟨first, rest⟩, h⟩ := r
    dsimp only
    show _ = taken (readOperands rest) >>= _
    cases readOperands rest <;> rfl

theorem taken_readOperands_end {ts : List Lexeme} (h : EndsAt [.ampersand] ts) :
    taken (readOperands ts) = .ok ([], ts) := by
  rw [readOperands.eq_def]
  split
  · exact absurd (List.mem_singleton.2 rfl) (h _ rfl)
  · rfl

theorem taken_readPostfix (ts : List Lexeme) :
    taken (readPostfix ts) = (do
      let (ty, rest) ← taken (readPrimary ts)
      taken (readSuffixes ty rest)) := by
  rw [readPostfix]
  cases readPrimary ts with
  | error e => rfl
  | ok r =>
    obtain ⟨⟨ty, rest⟩, h⟩ := r
    dsimp only
    show _ = taken (readSuffixes ty rest)
    cases readSuffixes ty rest <;> rfl

theorem taken_readSuffixes_array (ty : TypeExpr) (o o' : Nat) (ts : List Lexeme) :
    taken (readSuffixes ty (⟨.openBracket, o⟩ :: ⟨.closeBracket, o'⟩ :: ts)) =
      taken (readSuffixes (.array ty) ts) := by
  rw [readSuffixes]
  cases readSuffixes (.array ty) ts <;> rfl

theorem taken_readSuffixes_bracket (ty : TypeExpr) (o : Nat) (ts : List Lexeme) :
    taken (readSuffixes ty (⟨.openBracket, o⟩ :: ts)) = (do
      let (_, rest) ← taken (expect .closeBracket ']' ts)
      taken (readSuffixes (.array ty) rest)) := by
  match ts with
  | [] =>
    rw [readSuffixes] <;> simp [expect]
    rfl
  | ⟨t, o'⟩ :: rest =>
    by_cases ht : t = .closeBracket
    · subst ht
      have same : (⟨.closeBracket, o'⟩ : Lexeme).token = .closeBracket := rfl
      rw [taken_readSuffixes_array, taken_expect_cons same]
      rfl
    · rw [readSuffixes, expect, if_neg ht]
      · rfl
      · rintro _ _ he
        cases he
        exact ht rfl

theorem taken_readSuffixes_question (ty : TypeExpr) (o : Nat) (ts : List Lexeme) :
    taken (readSuffixes ty (⟨.question, o⟩ :: ts)) = taken (readSuffixes (optional ty) ts) := by
  rw [readSuffixes]
  cases readSuffixes (optional ty) ts <;> rfl

theorem taken_readSuffixes_end {ty : TypeExpr} {ts : List Lexeme}
    (h : EndsAt [.openBracket, .question] ts) : taken (readSuffixes ty ts) = .ok (ty, ts) := by
  rw [readSuffixes.eq_def]
  split
  · exact absurd (by simp) (h _ rfl)
  · exact absurd (by simp) (h _ rfl)
  · exact absurd (by simp) (h _ rfl)
  · rfl

theorem taken_readPrimary_parens {o : Nat} {ts : List Lexeme} (h : EndsAt [.closeParen] ts) :
    taken (readPrimary (⟨.openParen, o⟩ :: ts)) = (do
      let (ty, rest) ← taken (readUnion ts)
      let (_, rest) ← taken (expect .closeParen ')' rest)
      return (ty, rest)) := by
  have opens : ∀ o' rest, ts = ⟨.closeParen, o'⟩ :: rest → False := by
    rintro o' rest rfl
    exact absurd (List.mem_singleton.2 rfl) (h _ rfl)
  rw [readPrimary]
  · cases readUnion ts with
    | error e => rfl
    | ok r =>
      obtain ⟨⟨ty, rest⟩, h⟩ := r
      dsimp only
      show _ = taken (expect .closeParen ')' rest) >>= _
      cases expect .closeParen ')' rest <;> rfl
  · exact opens

theorem taken_readPrimary_nil (o o' : Nat) (ts : List Lexeme) :
    taken (readPrimary (⟨.openParen, o⟩ :: ⟨.closeParen, o'⟩ :: ts)) = .ok (.nil, ts) := by
  rw [readPrimary]
  rfl

theorem taken_readPrimary_bracket (o : Nat) (ts : List Lexeme) :
    taken (readPrimary (⟨.openBracket, o⟩ :: ts)) = (do
      let (first, rest) ← taken (readUnion ts)
      let (more, rest) ← taken (readElements rest)
      let (_, rest) ← taken (expect .closeBracket ']' rest)
      return (.tuple (first :: more), rest)) := by
  rw [readPrimary]
  cases readUnion ts with
  | error e => rfl
  | ok r =>
    obtain ⟨⟨first, rest⟩, h⟩ := r
    dsimp only
    show _ = taken (readElements rest) >>= _
    cases readElements rest with
    | error e => rfl
    | ok r =>
      obtain ⟨⟨more, rest'⟩, h'⟩ := r
      dsimp only
      show _ = taken (expect .closeBracket ']' rest') >>= _
      cases expect .closeBracket ']' rest' <;> rfl

/-- The type that a name denotes by itself. -/
def ofName (name : String) : TypeExpr :=
  match Builtin.ofWord? name with
  | some b => .builtin b
  | none => .named name

theorem taken_readPrimary_name (name : String) (o : Nat) (ts : List Lexeme) :
    taken (readPrimary (⟨.name name, o⟩ :: ts)) =
      if name = "map" then (do
        let (ty, rest) ← taken (readParameter ts)
        return (.map ty, rest))
      else if name = "table" then (do
        let (ty, rest) ← taken (readParameter ts)
        return (.table ty, rest))
      else .ok (ofName name, ts) := by
  rw [readPrimary]
  split
  · cases readParameter ts <;> rfl
  · split
    · cases readParameter ts <;> rfl
    · unfold ofName
      cases Builtin.ofWord? name <;> rfl

/-- What starts neither with a bracket nor with a name is no type. -/
theorem taken_readPrimary_other {l : Lexeme} {ts : List Lexeme}
    (h : l.token ≠ .openParen ∧ l.token ≠ .openBracket ∧ ∀ name, l.token ≠ .name name) :
    taken (readPrimary (l :: ts)) = .error ⟨.unexpectedCharacter, l :: ts⟩ := by
  obtain ⟨t, o⟩ := l
  obtain ⟨hp, hb, hn⟩ := h
  cases t with
  | openParen => exact absurd rfl hp
  | openBracket => exact absurd rfl hb
  | name name => exact absurd rfl (hn name)
  | _ => rw [readPrimary] <;> simp

theorem taken_readElements_comma (o : Nat) (ts : List Lexeme) :
    taken (readElements (⟨.comma, o⟩ :: ts)) = (do
      let (ty, rest) ← taken (readUnion ts)
      let (more, rest) ← taken (readElements rest)
      return (ty :: more, rest)) := by
  rw [readElements]
  cases readUnion ts with
  | error e => rfl
  | ok r =>
    obtain ⟨⟨first, rest⟩, h⟩ := r
    dsimp only
    show _ = taken (readElements rest) >>= _
    cases readElements rest <;> rfl

theorem taken_readElements_end {ts : List Lexeme} (h : EndsAt [.comma] ts) :
    taken (readElements ts) = .ok ([], ts) := by
  rw [readElements.eq_def]
  split
  · exact absurd (List.mem_singleton.2 rfl) (h _ rfl)
  · rfl

theorem taken_readParameter (ts : List Lexeme) :
    taken (readParameter ts) = (do
      let (_, rest) ← taken (expect .less '<' ts)
      let (ty, rest) ← taken (readUnion rest)
      let (_, rest) ← taken (expect .greater '>' rest)
      return (ty, rest)) := by
  rw [readParameter]
  cases expect .less '<' ts with
  | error e => rfl
  | ok r =>
    obtain ⟨⟨_, rest⟩, h⟩ := r
    dsimp only
    show _ = taken (readUnion rest) >>= _
    cases readUnion rest with
    | error e => rfl
    | ok r =>
      obtain ⟨⟨ty, rest'⟩, h'⟩ := r
      dsimp only
      show _ = taken (expect .greater '>' rest') >>= _
      cases expect .greater '>' rest' <;> rfl

end FunctionApp.TypeExpr
