import FunctionApp.Proofs.TypeExpr.Reader

/-!
# Reading is deriving

The reader follows just one derivation of the tokens that it takes (`sound_union`), and it takes all
tokens of a derivation up to one that cannot go on with it (`complete_union`), so that reading a text
is deriving a type from it (`parse_iff_derives`).
-/

namespace FunctionApp.TypeExpr

open Grammar

/-! ## What is read is derived -/

/-- Some tokens at the front derive a value, and the others are left. -/
def Derived {α : Type} (D : List Token → α → Prop) (ts : List Lexeme) (p : α × List Lexeme) : Prop :=
  ∃ used, ts = used ++ p.2 ∧ D (tokens used) p.1

namespace Derived

variable {α β γ : Type} {D : List Token → α → Prop} {E : List Token → β → Prop}
  {F : List Token → γ → Prop} {ts rest rest' : List Lexeme} {a : α} {b : β} {c : γ} {t : Token}

/-- What is derived from tokens at the front, and then something from the ones behind them. -/
theorem append (h : Derived D ts (a, rest)) (h' : Derived E rest (b, rest'))
    (hd : ∀ {us vs}, D us a → E vs b → F (us ++ vs) c) : Derived F ts (c, rest') := by
  obtain ⟨used, rfl, hD⟩ := h
  obtain ⟨used', rfl, hE⟩ := h'
  refine ⟨used ++ used', (List.append_assoc ..).symm, ?_⟩
  rw [tokens_append]
  exact hd hD hE

/-- A symbol that comes first. -/
theorem cons {o : Nat} (h : Derived (fun us => F (t :: us)) ts (c, rest)) :
    Derived F (⟨t, o⟩ :: ts) (c, rest) := by
  obtain ⟨used, rfl, hF⟩ := h
  exact ⟨⟨t, o⟩ :: used, rfl, hF⟩

/-- A symbol that is expected behind. -/
theorem closed {symbol : Char} {u : Unit} (h : Derived D ts (a, rest))
    (he : taken (expect t symbol rest) = .ok (u, rest'))
    (hd : ∀ {us}, D us a → F (us ++ [t]) c) : Derived F ts (c, rest') := by
  obtain ⟨l, rfl, ht⟩ := eq_cons_of_expect he
  have last : Derived (fun us (_ : Unit) => us = [t]) (l :: rest') ((), rest') :=
    ⟨[l], rfl, by rw [← ht]; rfl⟩
  refine h.append last fun hD e => ?_
  rw [e]
  exact hd hD

end Derived

theorem sound_suffixes {ty : TypeExpr} {ts : List Lexeme} {p : TypeExpr × List Lexeme}
    (h : taken (readSuffixes ty ts) = .ok p) : Derived (Suffixes ty) ts p := by
  fun_induction readSuffixes ty ts with
  | case1 ty o o' more e he ih => cases h
  | case2 ty o o' more q hq he ih =>
    cases h
    obtain ⟨used, hu, hs⟩ := ih (by rw [he]; rfl)
    exact ⟨⟨.openBracket, o⟩ :: ⟨.closeBracket, o'⟩ :: used, congrArg (_ :: _ :: ·) hu, .array hs⟩
  | case3 ty o more hn => cases h
  | case4 ty o more e he ih => cases h
  | case5 ty o more q hq he ih =>
    cases h
    obtain ⟨used, hu, hs⟩ := ih (by rw [he]; rfl)
    exact ⟨⟨.question, o⟩ :: used, congrArg (_ :: ·) hu, .optional hs⟩
  | case6 ty ts h₁ h₂ h₃ =>
    cases h
    exact ⟨[], rfl, .nil⟩

/-- A loop over items, each behind a symbol, is sound where the items and the rest of the loop are. -/
theorem derived_loop {α : Type} {D : List Token → α → Prop} {L : List Token → List α → Prop}
    {t : Token} {item : List Lexeme → Except Stop (α × List Lexeme)}
    {loop : List Lexeme → Except Stop (List α × List Lexeme)} {ts : List Lexeme}
    {p : List α × List Lexeme} (nil : L [] [])
    (cons : ∀ {us vs a as}, D us a → L vs as → L (t :: (us ++ vs)) (a :: as))
    (ends : ∀ {ts}, EndsAt [t] ts → loop ts = .ok ([], ts))
    (goes : ∀ o ts, loop (⟨t, o⟩ :: ts) = (do
      let (a, rest) ← item ts
      let (more, rest) ← loop rest
      return (a :: more, rest)))
    (shorter : ∀ {ts a rest}, item ts = .ok (a, rest) → rest.length < ts.length)
    (first : ∀ {after q}, after.length < ts.length → item after = .ok q → Derived D after q)
    (others : ∀ {after q}, after.length < ts.length → loop after = .ok q → Derived L after q)
    (h : loop ts = .ok p) : Derived L ts p := by
  rcases exists_cons_or_endsAt t ts with ⟨o, after, rfl⟩ | he
  · have less : after.length < (Lexeme.mk t o :: after).length := Nat.lt_succ_self _
    rw [goes] at h
    obtain ⟨⟨a, rest⟩, hf, h⟩ := bind_eq_ok.1 h
    obtain ⟨⟨more, rest'⟩, hm, h⟩ := bind_eq_ok.1 h
    cases h
    exact .cons (.append (first less hf) (others (Nat.lt_trans (shorter hf) less) hm) cons)
  · rw [ends he] at h
    cases h
    exact ⟨[], rfl, nil⟩

theorem ofName_spec {name : String} (hm : name ≠ "map") (ht : name ≠ "table") :
    IsPrimary [.name name] (ofName name) := by
  unfold ofName
  split
  · next b hb =>
    have word : b.word = name := by simpa using List.find?_some hb
    exact word ▸ .builtin b
  · next hb =>
    refine .named hm ht fun b e => ?_
    rw [e, Builtin.ofWord?_word] at hb
    cases hb

mutual

/-- A type that was read is derived from the tokens that were taken. -/
theorem sound_union {ts : List Lexeme} {p : TypeExpr × List Lexeme}
    (h : taken (readUnion ts) = .ok p) : Derived IsUnion ts p := by
  rw [taken_readUnion] at h
  obtain ⟨⟨first, rest⟩, hf, h⟩ := bind_eq_ok.1 h
  obtain ⟨⟨more, rest'⟩, hm, h⟩ := bind_eq_ok.1 h
  cases h
  have hlt := length_lt_of_taken hf
  exact (sound_intersection hf).append (sound_alternatives hm) .mk
termination_by 5 * ts.length + 4

theorem sound_alternatives {ts : List Lexeme} {p : List TypeExpr × List Lexeme}
    (h : taken (readAlternatives ts) = .ok p) : Derived Alternatives ts p :=
  derived_loop .nil .cons taken_readAlternatives_end taken_readAlternatives_bar length_lt_of_taken
    (fun _ hf => sound_intersection hf) (fun _ hm => sound_alternatives hm) h
termination_by 5 * ts.length

theorem sound_intersection {ts : List Lexeme} {p : TypeExpr × List Lexeme}
    (h : taken (readIntersection ts) = .ok p) : Derived IsIntersection ts p := by
  rw [taken_readIntersection] at h
  obtain ⟨⟨first, rest⟩, hf, h⟩ := bind_eq_ok.1 h
  obtain ⟨⟨more, rest'⟩, hm, h⟩ := bind_eq_ok.1 h
  cases h
  have hlt := length_lt_of_taken hf
  exact (sound_postfixed hf).append (sound_operands hm) .mk
termination_by 5 * ts.length + 3

theorem sound_operands {ts : List Lexeme} {p : List TypeExpr × List Lexeme}
    (h : taken (readOperands ts) = .ok p) : Derived Operands ts p :=
  derived_loop .nil .cons taken_readOperands_end taken_readOperands_ampersand length_lt_of_taken
    (fun _ hf => sound_postfixed hf) (fun _ hm => sound_operands hm) h
termination_by 5 * ts.length

theorem sound_postfixed {ts : List Lexeme} {p : TypeExpr × List Lexeme}
    (h : taken (readPostfix ts) = .ok p) : Derived IsPostfix ts p := by
  rw [taken_readPostfix] at h
  obtain ⟨⟨first, rest⟩, hf, h⟩ := bind_eq_ok.1 h
  exact (sound_primary hf).append (sound_suffixes h) .mk
termination_by 5 * ts.length + 2

theorem sound_primary {ts : List Lexeme} {p : TypeExpr × List Lexeme}
    (h : taken (readPrimary ts) = .ok p) : Derived IsPrimary ts p := by
  match ts, h with
  | [], h =>
    rw [readPrimary] at h
    cases h
  | ⟨.openParen, o⟩ :: after, h =>
    rcases exists_cons_or_endsAt .closeParen after with ⟨o', rest, rfl⟩ | he
    · rw [taken_readPrimary_nil] at h
      cases h
      exact ⟨[⟨.openParen, o⟩, ⟨.closeParen, o'⟩], rfl, .nil⟩
    · rw [taken_readPrimary_parens he] at h
      obtain ⟨⟨ty, rest⟩, hf, h⟩ := bind_eq_ok.1 h
      obtain ⟨⟨_, rest'⟩, hc, h⟩ := bind_eq_ok.1 h
      cases h
      exact .cons ((sound_union hf).closed hc .parens)
  | ⟨.openBracket, o⟩ :: after, h =>
    rw [taken_readPrimary_bracket] at h
    obtain ⟨⟨ty, rest⟩, hf, h⟩ := bind_eq_ok.1 h
    obtain ⟨⟨more, rest'⟩, hm, h⟩ := bind_eq_ok.1 h
    obtain ⟨⟨_, rest''⟩, hc, h⟩ := bind_eq_ok.1 h
    cases h
    have hlt := length_lt_of_taken hf
    have closed : Derived (fun us tys => ∃ vs, us = vs ++ [.closeBracket] ∧ Elements vs tys) rest
        (more, rest'') := (sound_elements hm).closed hc fun hd => ⟨_, rfl, hd⟩
    refine .cons ((sound_union hf).append closed ?_)
    rintro us _ hd ⟨vs, rfl, hd'⟩
    exact .tuple hd hd'
  | ⟨.name name, o⟩ :: after, h =>
    rw [taken_readPrimary_name] at h
    split at h
    · next hm =>
      obtain ⟨⟨ty, rest⟩, hf, h⟩ := bind_eq_ok.1 h
      cases h
      obtain ⟨used, rfl, inner, ht, hd⟩ := sound_parameter hf
      exact .cons ⟨used, rfl, by rw [hm, ht]; exact .map hd⟩
    · next hm =>
      split at h
      · next ht =>
        obtain ⟨⟨ty, rest⟩, hf, h⟩ := bind_eq_ok.1 h
        cases h
        obtain ⟨used, rfl, inner, hi, hd⟩ := sound_parameter hf
        exact .cons ⟨used, rfl, by rw [ht, hi]; exact .table hd⟩
      · next ht =>
        cases h
        exact ⟨[⟨.name name, o⟩], rfl, ofName_spec hm ht⟩
  | ⟨.closeParen, o⟩ :: after, h | ⟨.closeBracket, o⟩ :: after, h | ⟨.question, o⟩ :: after, h
  | ⟨.bar, o⟩ :: after, h | ⟨.ampersand, o⟩ :: after, h | ⟨.comma, o⟩ :: after, h
  | ⟨.less, o⟩ :: after, h | ⟨.greater, o⟩ :: after, h | ⟨.other _, o⟩ :: after, h =>
    rw [taken_readPrimary_other (by simp)] at h
    cases h
termination_by 5 * ts.length + 1

theorem sound_elements {ts : List Lexeme} {p : List TypeExpr × List Lexeme}
    (h : taken (readElements ts) = .ok p) : Derived Elements ts p :=
  derived_loop .nil .cons taken_readElements_end taken_readElements_comma length_lt_of_taken
    (fun _ hf => sound_union hf) (fun _ hm => sound_elements hm) h
termination_by 5 * ts.length

theorem sound_parameter {ts : List Lexeme} {p : TypeExpr × List Lexeme}
    (h : taken (readParameter ts) = .ok p) :
    Derived (fun used ty => ∃ inner, used = .less :: (inner ++ [.greater]) ∧ IsUnion inner ty)
      ts p := by
  rw [taken_readParameter] at h
  obtain ⟨⟨_, rest⟩, ho, h⟩ := bind_eq_ok.1 h
  obtain ⟨⟨ty, rest'⟩, hf, h⟩ := bind_eq_ok.1 h
  obtain ⟨⟨_, rest''⟩, hc, h⟩ := bind_eq_ok.1 h
  cases h
  have hlt := length_lt_of_taken ho
  have argument := sound_union hf
  obtain ⟨⟨_, o⟩, rfl, rfl⟩ := eq_cons_of_expect ho
  exact .cons (argument.closed hc fun hd => ⟨_, rfl, hd⟩)
termination_by 5 * ts.length

end

/-! ## What is derived is read -/

/-- What ends before some tokens also ends before a loop in front of them. -/
theorem EndsAt.loop {kinds : List Token} {sep : Token} {used rest : List Lexeme}
    (hr : EndsAt kinds rest) (hs : ∀ t ∈ (tokens used).head?, t = sep) (hk : sep ∉ kinds) :
    EndsAt kinds (used ++ rest) := by
  cases used with
  | nil => exact hr
  | cons l used =>
    intro m hm
    obtain rfl : l = m := Option.some.inj hm
    rw [hs l.token rfl]
    exact hk

theorem EndsAt.mono {kinds kinds' : List Token} {ts : List Lexeme} (h : EndsAt kinds ts)
    (hk : kinds' ⊆ kinds) : EndsAt kinds' ts :=
  fun l hl hm => h l hl (hk hm)

theorem endsAt_nil (ts : List Lexeme) : EndsAt [] ts := fun _ _ => List.not_mem_nil

theorem endsAt_cons {kinds : List Token} {l : Lexeme} {ts : List Lexeme} (h : l.token ∉ kinds) :
    EndsAt kinds (l :: ts) := by
  intro m hm
  exact Option.some.inj hm ▸ h

/-- Tokens are read as a value to their last one, where none of some kinds comes next that would go on
with it. -/
def ReadsAll {α : Type} (kinds : List Token) (read : List Lexeme → Except Stop (α × List Lexeme))
    (ts : List Token) (a : α) : Prop :=
  ∀ ⦃ls rest⦄, tokens ls = ts → EndsAt kinds rest → read (ls ++ rest) = .ok (a, rest)

namespace ReadsAll

variable {α β : Type} {kinds itemKinds : List Token} {t : Token} {ts us : List Token} {a : α}
  {as : List α} {item : List Lexeme → Except Stop (α × List Lexeme)}
  {loop : List Lexeme → Except Stop (List α × List Lexeme)}

/-- A loop ends where the symbol of its items does not come next. -/
theorem nil (ends : ∀ {ts}, EndsAt [t] ts → loop ts = .ok ([], ts)) (ht : t ∈ kinds) :
    ReadsAll kinds loop [] [] := by
  intro ls rest hl he
  obtain rfl := eq_nil_of_tokens hl
  exact ends (he.mono (by simpa using ht))

section

variable (hi : ReadsAll itemKinds item ts a) (hl : ReadsAll kinds loop us as)
  (hk : itemKinds ⊆ kinds) (ht : t ∉ itemKinds) (head : ∀ s ∈ us.head?, s = t)

include hi hl hk ht head

/-- What starts with an item and goes on with a loop. -/
theorem before {read : List Lexeme → Except Stop (β × List Lexeme)} {f : α → List α → β}
    (goes : ∀ ts, read ts = (do
      let (first, rest) ← item ts
      let (more, rest) ← loop rest
      return (f first more, rest))) : ReadsAll kinds read (ts ++ us) (f a as) := by
  intro ls rest hls he
  obtain ⟨before, after, rfl, hb, hs⟩ := eq_append_of_tokens hls
  have first := hi hb ((he.mono hk).loop (hs ▸ head) ht)
  rw [goes, List.append_assoc]
  exact bind_eq_ok.2 ⟨_, first, bind_eq_ok.2 ⟨_, hl hs he, rfl⟩⟩

/-- A loop with an item behind its symbol and others behind that. -/
theorem cons (goes : ∀ o ts, loop (⟨t, o⟩ :: ts) = (do
      let (first, rest) ← item ts
      let (more, rest) ← loop rest
      return (first :: more, rest))) : ReadsAll kinds loop (t :: (ts ++ us)) (a :: as) := by
  intro ls rest hls he
  obtain ⟨o, ls, rfl, hls'⟩ := eq_cons_of_tokens hls
  exact hi.before hl hk ht head (goes o) hls' he

end

end ReadsAll

theorem complete_suffixes {ty r : TypeExpr} {ts : List Token} (h : Suffixes ty ts r) :
    ReadsAll [.openBracket, .question] (fun ts => taken (readSuffixes ty ts)) ts r := by
  induction h with
  | nil =>
    intro ls rest hl he
    obtain rfl := eq_nil_of_tokens hl
    exact taken_readSuffixes_end he
  | array _ ih =>
    intro ls rest hl he
    obtain ⟨o, ls, rfl, hb⟩ := eq_cons_of_tokens hl
    obtain ⟨o', ls, rfl, hs⟩ := eq_cons_of_tokens hb
    exact (taken_readSuffixes_array _ o o' _).trans (ih hs he)
  | optional _ ih =>
    intro ls rest hl he
    obtain ⟨o, ls, rfl, hs⟩ := eq_cons_of_tokens hl
    exact (taken_readSuffixes_question _ o _).trans (ih hs he)

/-- The kinds of tokens that go on with a type. -/
abbrev goesOn : List Token := [.bar, .ampersand, .openBracket, .question]

section Brackets

variable {ts : List Token} {ty : TypeExpr}
  (inner : ReadsAll goesOn (fun ts => taken (readUnion ts)) ts ty)

include inner

theorem complete_parameter :
    ReadsAll [] (fun ts => taken (readParameter ts)) (.less :: (ts ++ [.greater])) ty := by
  intro ls rest hl _
  obtain ⟨o, ls, rfl, hl'⟩ := eq_cons_of_tokens hl
  obtain ⟨inside, after, rfl, hi, ha⟩ := eq_append_of_tokens hl'
  obtain ⟨o', after, rfl, hn⟩ := eq_cons_of_tokens ha
  obtain rfl := eq_nil_of_tokens hn
  have ends : EndsAt goesOn (⟨.greater, o'⟩ :: rest) := endsAt_cons (by simp)
  dsimp only
  rw [taken_readParameter, List.cons_append, List.append_assoc, List.singleton_append]
  exact bind_eq_ok.2 ⟨_, taken_expect_cons rfl _ _, bind_eq_ok.2 ⟨_, inner hi ends,
    bind_eq_ok.2 ⟨_, taken_expect_cons rfl _ _, rfl⟩⟩⟩

theorem complete_parens (h : IsUnion ts ty) :
    ReadsAll [] (fun ts => taken (readPrimary ts)) (.openParen :: (ts ++ [.closeParen])) ty := by
  intro ls rest hl _
  obtain ⟨o, ls, rfl, hl'⟩ := eq_cons_of_tokens hl
  obtain ⟨inside, after, rfl, hi, ha⟩ := eq_append_of_tokens hl'
  obtain ⟨o', after, rfl, hn⟩ := eq_cons_of_tokens ha
  obtain rfl := eq_nil_of_tokens hn
  have ends : EndsAt goesOn (⟨.closeParen, o'⟩ :: rest) := endsAt_cons (by simp)
  have type := inner hi ends
  have opens : EndsAt [.closeParen] (inside ++ ⟨.closeParen, o'⟩ :: rest) := by
    obtain ⟨t, more, ht, hne⟩ := head?_of_union h
    obtain ⟨_, inside, rfl, -⟩ := eq_cons_of_tokens (hi.trans ht)
    exact endsAt_cons (by simpa using hne)
  dsimp only
  rw [List.cons_append, List.append_assoc, List.singleton_append, taken_readPrimary_parens opens]
  exact bind_eq_ok.2 ⟨_, type, bind_eq_ok.2 ⟨_, taken_expect_cons rfl _ _, rfl⟩⟩

theorem complete_tuple {us : List Token} {tys : List TypeExpr} (h : Elements us tys)
    (others : ReadsAll (.comma :: goesOn) (fun ts => taken (readElements ts)) us tys) :
    ReadsAll [] (fun ts => taken (readPrimary ts)) (.openBracket :: (ts ++ (us ++ [.closeBracket])))
      (.tuple (ty :: tys)) := by
  intro ls rest hl _
  obtain ⟨o, ls, rfl, hl'⟩ := eq_cons_of_tokens hl
  obtain ⟨before, after, rfl, hb, ha⟩ := eq_append_of_tokens hl'
  obtain ⟨more, after, rfl, hm, hc⟩ := eq_append_of_tokens ha
  obtain ⟨o', after, rfl, hn⟩ := eq_cons_of_tokens hc
  obtain rfl := eq_nil_of_tokens hn
  have ends (kinds : List Token) (hk : Token.closeBracket ∉ kinds) :
      EndsAt kinds (⟨.closeBracket, o'⟩ :: rest) := endsAt_cons hk
  have first := inner hb ((ends goesOn (by simp)).loop (hm ▸ head?_of_elements h) (by simp))
  have more := others hm (ends (.comma :: goesOn) (by simp))
  dsimp only
  rw [List.cons_append, List.append_assoc, List.append_assoc, List.singleton_append,
    taken_readPrimary_bracket]
  exact bind_eq_ok.2 ⟨_, first, bind_eq_ok.2 ⟨_, more,
    bind_eq_ok.2 ⟨_, taken_expect_cons rfl _ _, rfl⟩⟩⟩

end Brackets

mutual

/-- A type that the tokens derive is read from them, up to a token that cannot go on with it. -/
theorem complete_union : ∀ {ts : List Token} {ty : TypeExpr}, IsUnion ts ty →
    ReadsAll goesOn (fun ts => taken (readUnion ts)) ts ty
  | _, _, .mk hi ha => (complete_intersection hi).before (complete_alternatives ha) (by simp)
      (by simp) (head?_of_alternatives ha) taken_readUnion

theorem complete_alternatives : ∀ {ts : List Token} {tys : List TypeExpr}, Alternatives ts tys →
    ReadsAll goesOn (fun ts => taken (readAlternatives ts)) ts tys
  | _, _, .nil => .nil taken_readAlternatives_end (by simp)
  | _, _, .cons hi ha => (complete_intersection hi).cons (complete_alternatives ha) (by simp)
      (by simp) (head?_of_alternatives ha) taken_readAlternatives_bar

theorem complete_intersection : ∀ {ts : List Token} {ty : TypeExpr}, IsIntersection ts ty →
    ReadsAll [.ampersand, .openBracket, .question] (fun ts => taken (readIntersection ts)) ts ty
  | _, _, .mk hp ho => (complete_postfixed hp).before (complete_operands ho) (by simp) (by simp)
      (head?_of_operands ho) taken_readIntersection

theorem complete_operands : ∀ {ts : List Token} {tys : List TypeExpr}, Operands ts tys →
    ReadsAll [.ampersand, .openBracket, .question] (fun ts => taken (readOperands ts)) ts tys
  | _, _, .nil => .nil taken_readOperands_end (by simp)
  | _, _, .cons hp ho => (complete_postfixed hp).cons (complete_operands ho) (by simp) (by simp)
      (head?_of_operands ho) taken_readOperands_ampersand

theorem complete_postfixed : ∀ {ts : List Token} {ty : TypeExpr}, IsPostfix ts ty →
    ReadsAll [.openBracket, .question] (fun ts => taken (readPostfix ts)) ts ty
  | _, _, .mk hp hs => by
    intro ls rest hl he
    obtain ⟨before, after, rfl, hb, ha⟩ := eq_append_of_tokens hl
    dsimp only
    rw [taken_readPostfix, List.append_assoc]
    exact bind_eq_ok.2 ⟨_, complete_primary hp hb (endsAt_nil _), complete_suffixes hs ha he⟩

theorem complete_primary : ∀ {ts : List Token} {ty : TypeExpr}, IsPrimary ts ty →
    ReadsAll [] (fun ts => taken (readPrimary ts)) ts ty
  | _, _, .nil => by
    intro ls rest hl _
    obtain ⟨o, ls, rfl, hl'⟩ := eq_cons_of_tokens hl
    obtain ⟨o', ls, rfl, hn⟩ := eq_cons_of_tokens hl'
    obtain rfl := eq_nil_of_tokens hn
    exact taken_readPrimary_nil o o' rest
  | _, _, .parens h => complete_parens (complete_union h) h
  | _, _, .tuple h he => complete_tuple (complete_union h) he (complete_elements he)
  | _, _, .map h => by
    intro ls rest hl he
    obtain ⟨o, ls, rfl, hl'⟩ := eq_cons_of_tokens hl
    dsimp only
    rw [List.cons_append, taken_readPrimary_name, if_pos rfl]
    exact bind_eq_ok.2 ⟨_, complete_parameter (complete_union h) hl' he, rfl⟩
  | _, _, .table h => by
    intro ls rest hl he
    obtain ⟨o, ls, rfl, hl'⟩ := eq_cons_of_tokens hl
    dsimp only
    rw [List.cons_append, taken_readPrimary_name, if_neg (by decide), if_pos rfl]
    exact bind_eq_ok.2 ⟨_, complete_parameter (complete_union h) hl' he, rfl⟩
  | _, _, .builtin b => by
    intro ls rest hl _
    obtain ⟨o, ls, rfl, hn⟩ := eq_cons_of_tokens hl
    obtain rfl := eq_nil_of_tokens hn
    have others : b.word ≠ "map" ∧ b.word ≠ "table" := by cases b <;> decide
    dsimp only
    rw [List.cons_append, taken_readPrimary_name, if_neg others.1, if_neg others.2, ofName,
      Builtin.ofWord?_word]
    rfl
  | _, .named name, .named hm ht hb => by
    intro ls rest hl _
    obtain ⟨o, ls, rfl, hn⟩ := eq_cons_of_tokens hl
    obtain rfl := eq_nil_of_tokens hn
    have none : Builtin.ofWord? name = none :=
      List.find?_eq_none.2 fun b _ e => hb b (eq_of_beq e).symm
    dsimp only
    rw [List.cons_append, taken_readPrimary_name, if_neg hm, if_neg ht, ofName, none]
    rfl

theorem complete_elements : ∀ {ts : List Token} {tys : List TypeExpr}, Elements ts tys →
    ReadsAll (.comma :: goesOn) (fun ts => taken (readElements ts)) ts tys
  | _, _, .nil => .nil taken_readElements_end (by simp)
  | _, _, .cons hi ha => (complete_union hi).cons (complete_elements ha) (by simp) (by simp)
      (head?_of_elements ha) taken_readElements_comma

end

/-! ## Reading is deriving -/

/-- A text is a type expression when its tokens are read to the last one. -/
theorem parse_eq_ok {text : String} {ty : TypeExpr} :
    parse text = .ok ty ↔ taken (readUnion (scan 0 text.toList)) = .ok (ty, []) := by
  unfold parse
  dsimp only
  cases readUnion (scan 0 text.toList) with
  | error stop => simp
  | ok r =>
    obtain ⟨⟨read, _ | _⟩, _⟩ := r <;> simp

theorem derives_of_parse {text : String} {ty : TypeExpr} (h : parse text = .ok ty) :
    ∃ ts, Spells text.toList ts ∧ IsUnion ts ty := by
  obtain ⟨used, hu, hd⟩ := sound_union (parse_eq_ok.1 h)
  rw [List.append_nil] at hu
  exact ⟨tokens used, (spells_iff 0).2 ⟨by rw [hu], other_not_mem_union hd⟩, hd⟩

theorem parse_of_derives {text : String} {ts : List Token} {ty : TypeExpr}
    (hs : Spells text.toList ts) (hd : IsUnion ts ty) : parse text = .ok ty := by
  have ends : EndsAt goesOn [] := by simp [EndsAt]
  have whole := complete_union hd ((spells_iff 0).1 hs).1 ends
  rw [List.append_nil] at whole
  exact parse_eq_ok.2 whole

/-- **Reading a text is deriving a type from it.** A text is read as a type expression just when it
spells tokens that the grammar derives, and then it is the type that the derivation denotes. -/
theorem parse_iff_derives {text : String} {ty : TypeExpr} :
    parse text = .ok ty ↔ ∃ ts, Spells text.toList ts ∧ IsUnion ts ty :=
  ⟨derives_of_parse, fun ⟨_, hs, hd⟩ => parse_of_derives hs hd⟩

example : parse "(A|B)[]" = .ok (.array (.union [.named "A", .named "B"])) := by decide +kernel

end FunctionApp.TypeExpr
