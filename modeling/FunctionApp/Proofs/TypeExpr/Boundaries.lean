import FunctionApp.Proofs.TypeExpr.Cursor

/-!
# The reader of type expressions stays on character boundaries

The reader on bytes does what the reader on tokens does (`Agrees`): this is shown function by
function, for all of them at once by induction on the fuel (`faithful`). Five times as much fuel as
there are tokens is enough. So the reader comes to an end on every text, with the result of `parse`,
and all of its steps are sound (`parse_on_boundaries`).
-/

namespace FunctionApp.TypeExpr

open Grammar Text

/-! ## Steps of the reader -/

namespace ByteReader

variable {α β : Type} {text : String} {s s' : Cursor} {ts : List Lexeme}

theorem bind_ok {x : ByteReader α} {f : α → ByteReader β} {a : α} (h : x s = (.ok a, s')) :
    (x >>= f) s = f a s' := by
  show ExceptT.bindCont f (x s).1 (x s).2 = _
  rw [h]
  rfl

theorem bind_error {x : ByteReader α} {f : α → ByteReader β} {e : Halt}
    (h : x s = (.error e, s')) : (x >>= f) s = (.error e, s') := by
  show ExceptT.bindCont f (x s).1 (x s).2 = _
  rw [h]
  rfl

theorem get_eq (s : Cursor) : (get : ByteReader Cursor) s = (.ok s, s) := rfl

theorem modify_eq (f : Cursor → Cursor) (s : Cursor) :
    (modify f : ByteReader Unit) s = (.ok (), f s) := rfl

theorem eat_of_cons {c : Char} {t : Token} {o : Nat} (hc : (c, t) ∈ symbols)
    (h : Stands text s (⟨t, o⟩ :: ts)) :
    ∃ s', eat text c s = (.ok true, s') ∧ s.pos < s'.pos ∧ Stands text s' ts := by
  obtain ⟨s', b, hp, le, seen⟩ := peek_eq h
  by_cases hb : b = some c
  · subst hb
    obtain ⟨more, he, there⟩ := seen.of_symbol hc
    cases he
    refine ⟨s'.next, ?_, Nat.lt_succ_of_le le, there⟩
    rw [eat, bind_ok hp, if_pos rfl]
    rfl
  · exact absurd (List.mem_singleton_self t) (seen.endsAt hc hb _ rfl)

theorem eat_of_endsAt {c : Char} {t : Token} (hc : (c, t) ∈ symbols) (h : Stands text s ts)
    (he : EndsAt [t] ts) : ∃ s', eat text c s = (.ok false, s') ∧ s.pos ≤ s'.pos ∧
      Stands text s' ts ∧ s'.pos = offsetOf text.utf8ByteSize ts := by
  obtain ⟨s', b, hp, le, seen⟩ := peek_eq h
  by_cases hb : b = some c
  · subst hb
    obtain ⟨more, rfl, -⟩ := seen.of_symbol hc
    exact absurd (List.mem_singleton_self t) (he _ rfl)
  · refine ⟨s', ?_, le, seen.stands⟩
    rw [eat, bind_ok hp, if_neg hb]
    rfl

/-- Whether the reader on bytes does what a reader on tokens does: it has the same result and stands
before the same tokens, not before a position, or it stops at the same place for the same cause. -/
def Agrees (text : String) (pos : Nat) (r : Except Stop (α × List Lexeme))
    (q : Except Halt α × Cursor) : Prop :=
  match r with
  | .ok (a, ts) => q.1 = .ok a ∧ pos ≤ q.2.pos ∧ Stands text q.2 ts
  | .error stop => q.1 = .error (.refused ⟨text, q.2.pos, stop.cause⟩) ∧
      q.2.pos = offsetOf text.utf8ByteSize stop.rest ∧ Stands text q.2 stop.rest

namespace Agrees

variable {pos pos' : Nat} {r : Except Stop (α × List Lexeme)} {q : Except Halt α × Cursor}

theorem mono (h : Agrees text pos' r q) (hp : pos ≤ pos') : Agrees text pos r q := by
  match r, h with
  | .ok (a, ts), h => exact ⟨h.1, Nat.le_trans hp h.2.1, h.2.2⟩
  | .error stop, h => exact h

theorem bind {x : ByteReader α} {f : α → ByteReader β}
    {g : α × List Lexeme → Except Stop (β × List Lexeme)} (h : Agrees text pos' r (x s))
    (hf : ∀ a ts s', r = .ok (a, ts) → pos' ≤ s'.pos → Stands text s' ts →
      Agrees text pos (g (a, ts)) (f a s')) : Agrees text pos (r >>= g) ((x >>= f) s) := by
  match r, h, hf with
  | .ok (a, ts), h, hf =>
    obtain ⟨hx, le, there⟩ := h
    have ran : x s = (.ok a, (x s).2) := Prod.ext hx rfl
    rw [bind_ok ran]
    exact hf a ts _ rfl le there
  | .error stop, h, _ =>
    have ran : x s = (.error (.refused ⟨text, (x s).2.pos, stop.cause⟩), (x s).2) :=
      Prod.ext h.1 rfl
    rw [bind_error ran]
    exact ⟨rfl, h.2⟩

theorem of_eq {x : ByteReader α} {f : α → ByteReader β} {a : α}
    {r : Except Stop (β × List Lexeme)} (hx : x s = (.ok a, s'))
    (hf : Agrees text pos r (f a s')) : Agrees text pos r ((x >>= f) s) := by
  rw [bind_ok hx]
  exact hf

theorem pure {a : α} (hp : pos ≤ s.pos) (h : Stands text s ts) :
    Agrees text pos (.ok (a, ts)) ((Pure.pure a : ByteReader α) s) :=
  ⟨rfl, hp, h⟩

theorem refuse {cause : SyntaxCause} (h : Stands text s ts)
    (hs : s.pos = offsetOf text.utf8ByteSize ts) :
    Agrees text pos (.error ⟨cause, ts⟩ : Except Stop (α × List Lexeme))
      (ByteReader.refuse text cause s) :=
  ⟨rfl, hs, h⟩

end Agrees

theorem agrees_expect {c : Char} {t : Token} (hc : (c, t) ∈ symbols) (h : Stands text s ts) :
    Agrees text (s.pos + 1) (taken (TypeExpr.expect t c ts)) (expect text c s) := by
  obtain he | ⟨o, more, rfl⟩ := (exists_cons_or_endsAt t ts).symm
  · obtain ⟨s', hs, -, there, pos⟩ := eat_of_endsAt hc h he
    have stops : taken (TypeExpr.expect t c ts) = .error ⟨.expected c, ts⟩ := by
      cases ts with
      | nil => rfl
      | cons l more =>
        have ne : l.token ≠ t := by simpa using he l rfl
        rw [TypeExpr.expect, if_neg ne]
        rfl
    rw [stops]
    exact .of_eq hs (.refuse there pos)
  · obtain ⟨s', hs, lt, there⟩ := eat_of_cons hc h
    have same : (⟨t, o⟩ : Lexeme).token = t := rfl
    rw [taken_expect_cons same]
    exact .of_eq hs (.pure lt there)

theorem takeName_eq {c : Char} {rest : List Char} (h : s.At text (c :: rest))
    (hc : startsName c = true) :
    ∃ s', takeName text s = (.ok (String.ofList (c :: rest.takeWhile continuesName)), s') ∧
      s.pos ≤ s'.pos ∧ Stands text s' (scan
        (s.pos + byteLength (c :: rest.takeWhile continuesName)) (rest.dropWhile continuesName)) := by
  obtain ⟨there, pos⟩ := h.passWhile ofAscii_continuesName
  rw [List.takeWhile_cons, if_pos (continuesName_of_startsName hc)] at pos
  rw [List.dropWhile_cons, if_pos (continuesName_of_startsName hc)] at there
  have le : s.pos ≤ (s.passWhile text continuesName).pos := by
    rw [pos]
    exact Nat.le_add_right _ _
  have cut : slice? text s.pos (s.passWhile text continuesName).pos =
      some (String.ofList (c :: rest.takeWhile continuesName)) := by
    refine Before.slice?_eq ?_ there.before
    rw [List.cons_append, List.takeWhile_append_dropWhile]
    exact h.before
  have sound : (Event.cut s.pos (s.passWhile text continuesName).pos).Sound text :=
    ⟨h.before.isValid, there.before.isValid, by rw [cut]; rfl⟩
  refine ⟨(s.passWhile text continuesName).note (.cut s.pos (s.passWhile text continuesName).pos),
    ?_, le, _, there.note sound, by rw [← pos]; rfl⟩
  unfold takeName
  rw [bind_ok (get_eq s), bind_ok (modify_eq _ s), bind_ok (get_eq _), bind_ok (modify_eq _ _),
    cut]
  rfl

/-! ## All functions of the reader -/

/-- Whether a reader on bytes does what a reader on tokens does from every place in a union that was
started at a position, if there is fuel for the tokens that are left. -/
def Follows (text : String) (start need fuel : Nat) (x : ByteReader α)
    (r : List Lexeme → Except Stop (α × List Lexeme)) : Prop :=
  ∀ ⦃s ts⦄, Stands text s ts → start ≤ s.pos → 5 * ts.length + need < fuel →
    Agrees text s.pos (r ts) (x s)

/-- Whether with so much fuel every function of the reader on bytes does what the one on tokens does.
-/
structure Faithful (text : String) (fuel : Nat) : Prop where
  union : ∀ ⦃outer s ts⦄, Stands text s ts → (∀ o ∈ outer, o < s.pos) →
    5 * ts.length + 4 < fuel → Agrees text s.pos (taken (readUnion ts)) (union text outer fuel s)
  alternatives : ∀ start, Follows text start 0 fuel (alternatives text start fuel)
    fun ts => taken (readAlternatives ts)
  intersection : ∀ start, Follows text start 3 fuel (intersection text start fuel)
    fun ts => taken (readIntersection ts)
  operands : ∀ start, Follows text start 0 fuel (operands text start fuel)
    fun ts => taken (readOperands ts)
  suffixed : ∀ start, Follows text start 2 fuel (suffixed text start fuel)
    fun ts => taken (readPostfix ts)
  suffixes : ∀ ty, Follows text 0 0 fuel (suffixes text ty fuel) fun ts => taken (readSuffixes ty ts)
  primary : ∀ start, Follows text start 1 fuel (primary text start fuel)
    fun ts => taken (readPrimary ts)
  elements : ∀ start, Follows text start 0 fuel (elements text start fuel)
    fun ts => taken (readElements ts)
  parameter : ∀ start, Follows text start 0 fuel (parameter text start fuel)
    fun ts => taken (readParameter ts)

/-- A loop over items, each behind a symbol, follows the loop over tokens if its items do. -/
theorem follows_loop {fuel start : Nat} {c : Char} {t : Token} (hc : (c, t) ∈ symbols)
    {item : ByteReader α} {loop : ByteReader (List α)}
    {r : List Lexeme → Except Stop (α × List Lexeme)}
    {l : List Lexeme → Except Stop (List α × List Lexeme)}
    (follows : ∀ ⦃s ts⦄, Stands text s ts → start < s.pos → 5 * ts.length + 4 < fuel →
      Agrees text s.pos (r ts) (item s))
    (again : Follows text start 0 fuel loop l)
    (shorter : ∀ ⦃ts a rest⦄, r ts = .ok (a, rest) → rest.length < ts.length)
    (ends : ∀ ts, EndsAt [t] ts → l ts = .ok ([], ts))
    (goes : ∀ o ts, l (⟨t, o⟩ :: ts) = (do
      let (a, rest) ← r ts
      let (more, rest) ← l rest
      return (a :: more, rest))) :
    Follows text start 0 (fuel + 1) (do
      if ← eat text c then
        let a ← item
        let more ← loop
        return a :: more
      else return []) l := by
  intro s ts h hs hf
  obtain he | ⟨o, ts, rfl⟩ := (exists_cons_or_endsAt t ts).symm
  · obtain ⟨s', heat, le, there, -⟩ := eat_of_endsAt hc h he
    rw [ends ts he]
    exact .of_eq heat (.pure le there)
  · obtain ⟨s', heat, lt, there⟩ := eat_of_cons hc h
    rw [goes]
    rw [List.length_cons] at hf
    refine .of_eq heat (.bind (follows there (Nat.lt_of_le_of_lt hs lt) (by omega)) ?_)
    intro a rest s'' hr le there
    have less := shorter hr
    refine .bind (again there (by omega) (by omega)) ?_
    intro more rest s''' _ le' there
    exact .pure (by omega) there

namespace Faithful

variable {fuel start : Nat}

theorem union_succ (ih : Faithful text fuel) {outer : Option Nat} (h : Stands text s ts)
    (ho : ∀ o ∈ outer, o < s.pos) (hf : 5 * ts.length + 4 < fuel + 1) :
    Agrees text s.pos (taken (readUnion ts)) (ByteReader.union text outer (fuel + 1) s) := by
  obtain ⟨rest, before, rfl⟩ := h
  have started : Stands text (s.note (.start outer s.pos)) (scan s.pos rest) :=
    ⟨rest, before.note ⟨before.before.isValid, ho⟩, rfl⟩
  rw [taken_readUnion]
  unfold ByteReader.union
  refine .bind (ih.intersection s.pos started (Nat.le_refl _) (by omega)) ?_
  intro first ts s' hr le there
  have shorter := length_lt_of_taken hr
  refine .bind (ih.alternatives s.pos there le (by omega)) ?_
  intro more ts s'' _ le' there
  exact .pure (Nat.le_trans le le') there

theorem alternatives_succ (ih : Faithful text fuel) : Follows text start 0 (fuel + 1)
    (ByteReader.alternatives text start (fuel + 1)) fun ts => taken (readAlternatives ts) := by
  have bar : ('|', Token.bar) ∈ symbols := by decide
  unfold ByteReader.alternatives
  refine follows_loop bar ?_ (ih.alternatives start) (fun _ _ _ => length_lt_of_taken)
    (fun _ => taken_readAlternatives_end) taken_readAlternatives_bar
  intro s ts h hs hf
  exact ih.intersection start h (Nat.le_of_lt hs) (by omega)

theorem intersection_succ (ih : Faithful text fuel) : Follows text start 3 (fuel + 1)
    (ByteReader.intersection text start (fuel + 1)) fun ts => taken (readIntersection ts) := by
  intro s ts h hs hf
  unfold ByteReader.intersection
  show Agrees text s.pos (taken (readIntersection ts)) _
  rw [taken_readIntersection]
  refine .bind (ih.suffixed start h hs (by omega)) ?_
  intro first ts s' hr le there
  have shorter := length_lt_of_taken hr
  refine .bind (ih.operands start there (by omega) (by omega)) ?_
  intro more ts s'' _ le' there
  exact .pure (Nat.le_trans le le') there

theorem operands_succ (ih : Faithful text fuel) : Follows text start 0 (fuel + 1)
    (ByteReader.operands text start (fuel + 1)) fun ts => taken (readOperands ts) := by
  have ampersand : ('&', Token.ampersand) ∈ symbols := by decide
  unfold ByteReader.operands
  refine follows_loop ampersand ?_ (ih.operands start) (fun _ _ _ => length_lt_of_taken)
    (fun _ => taken_readOperands_end) taken_readOperands_ampersand
  intro s ts h hs hf
  exact ih.suffixed start h (Nat.le_of_lt hs) (by omega)

theorem suffixed_succ (ih : Faithful text fuel) : Follows text start 2 (fuel + 1)
    (ByteReader.suffixed text start (fuel + 1)) fun ts => taken (readPostfix ts) := by
  intro s ts h hs hf
  unfold ByteReader.suffixed
  show Agrees text s.pos (taken (readPostfix ts)) _
  rw [taken_readPostfix]
  refine .bind (ih.primary start h hs (by omega)) ?_
  intro ty ts s' hr le there
  have shorter := length_lt_of_taken hr
  exact (ih.suffixes ty there (Nat.zero_le _) (by omega)).mono le

theorem elements_succ (ih : Faithful text fuel) : Follows text start 0 (fuel + 1)
    (ByteReader.elements text start (fuel + 1)) fun ts => taken (readElements ts) := by
  have comma : (',', Token.comma) ∈ symbols := by decide
  unfold ByteReader.elements
  refine follows_loop comma ?_ (ih.elements start) (fun _ _ _ => length_lt_of_taken)
    (fun _ => taken_readElements_end) taken_readElements_comma
  intro s ts h hs hf
  exact ih.union h (by simpa using hs) hf

theorem parameter_succ (ih : Faithful text fuel) : Follows text start 0 (fuel + 1)
    (ByteReader.parameter text start (fuel + 1)) fun ts => taken (readParameter ts) := by
  have less : ('<', Token.less) ∈ symbols := by decide
  have greater : ('>', Token.greater) ∈ symbols := by decide
  intro s ts h hs hf
  unfold ByteReader.parameter
  show Agrees text s.pos (taken (readParameter ts)) _
  rw [taken_readParameter]
  refine .bind (agrees_expect less h) ?_
  intro _ ts s' hr lt there
  have shorter := length_lt_of_taken hr
  refine .bind (ih.union there (by simpa using Nat.lt_of_le_of_lt hs lt) (by omega)) ?_
  intro ty ts s'' _ le there
  refine .bind (agrees_expect greater there) ?_
  intro _ ts s''' _ lt' there
  exact .pure (by omega) there

theorem suffixes_succ (ih : Faithful text fuel) (ty : TypeExpr) : Follows text 0 0 (fuel + 1)
    (ByteReader.suffixes text ty (fuel + 1)) fun ts => taken (readSuffixes ty ts) := by
  have bracket : ('[', Token.openBracket) ∈ symbols := by decide
  have question : ('?', Token.question) ∈ symbols := by decide
  have closing : (']', Token.closeBracket) ∈ symbols := by decide
  intro s ts h hs hf
  unfold ByteReader.suffixes
  show Agrees text s.pos (taken (readSuffixes ty ts)) _
  obtain ⟨s', b, hp, le, seen⟩ := peek_eq h
  refine .of_eq hp ?_
  split
  · obtain ⟨more, rfl, there⟩ := seen.of_symbol bracket
    rw [taken_readSuffixes_bracket]
    rw [List.length_cons] at hf
    refine .of_eq (modify_eq _ _) (.bind (agrees_expect closing there) ?_)
    intro _ ts s'' hr lt there
    have shorter := length_lt_of_taken hr
    rw [Cursor.pos_next] at lt
    exact (ih.suffixes (.array ty) there (Nat.zero_le _) (by omega)).mono (by omega)
  · obtain ⟨more, rfl, there⟩ := seen.of_symbol question
    rw [taken_readSuffixes_question]
    rw [List.length_cons] at hf
    refine .of_eq (modify_eq _ _) ?_
    exact (ih.suffixes (optional ty) there (Nat.zero_le _) (by omega)).mono (Nat.le_succ_of_le le)
  · next hb hq =>
    have ends : EndsAt [.openBracket, .question] ts := by
      intro l hl
      have hb' := seen.endsAt bracket hb l hl
      have hq' := seen.endsAt question hq l hl
      simp_all
    rw [taken_readSuffixes_end ends]
    exact .pure le seen.stands.1

/-- What stands behind a parenthesis is nothing or a type. -/
theorem agrees_parens (ih : Faithful text fuel) {o : Nat} (h : Stands text s ts) (hs : start < s.pos)
    (hf : 5 * ts.length + 4 < fuel) :
    Agrees text s.pos (taken (readPrimary (⟨.openParen, o⟩ :: ts))) ((do
      if ← eat text ')' then return .nil
      else
        let ty ← ByteReader.union text (some start) fuel
        ByteReader.expect text ')'
        return ty : ByteReader TypeExpr) s) := by
  have paren : (')', Token.closeParen) ∈ symbols := by decide
  obtain he | ⟨o', ts, rfl⟩ := (exists_cons_or_endsAt .closeParen ts).symm
  · obtain ⟨s', heat, le, there, -⟩ := eat_of_endsAt paren h he
    rw [taken_readPrimary_parens he]
    have deeper : ∀ o ∈ some start, o < s'.pos := by simpa using Nat.lt_of_lt_of_le hs le
    refine .of_eq heat (.bind (ih.union there deeper hf) ?_)
    intro ty ts s'' _ le' there
    refine .bind (agrees_expect paren there) ?_
    intro _ ts s''' _ lt there
    exact .pure (by omega) there
  · obtain ⟨s', heat, lt, there⟩ := eat_of_cons paren h
    rw [taken_readPrimary_nil]
    exact .of_eq heat (.pure (Nat.le_of_lt lt) there)

/-- What stands behind a bracket is the types of a tuple. -/
theorem agrees_tuple (ih : Faithful text fuel) {o : Nat} (h : Stands text s ts) (hs : start < s.pos)
    (hf : 5 * ts.length + 4 < fuel) :
    Agrees text s.pos (taken (readPrimary (⟨.openBracket, o⟩ :: ts))) ((do
      let first ← ByteReader.union text (some start) fuel
      let more ← ByteReader.elements text start fuel
      ByteReader.expect text ']'
      return .tuple (first :: more) : ByteReader TypeExpr) s) := by
  have bracket : (']', Token.closeBracket) ∈ symbols := by decide
  rw [taken_readPrimary_bracket]
  refine .bind (ih.union h (by simpa using hs) hf) ?_
  intro first ts s' hr le there
  have shorter := length_lt_of_taken hr
  refine .bind (ih.elements start there (by omega) (by omega)) ?_
  intro more ts s'' _ le' there
  refine .bind (agrees_expect bracket there) ?_
  intro _ ts s''' _ lt there
  exact .pure (by omega) there

/-- What a name is: that of a map or a table, with the type of their members behind it, or any other.
-/
theorem agrees_name (ih : Faithful text fuel) {name : String} {o : Nat} (h : Stands text s ts)
    (hs : start ≤ s.pos) (hf : 5 * ts.length < fuel) :
    Agrees text s.pos (taken (readPrimary (⟨.name name, o⟩ :: ts))) ((do
      if name = "map" then return .map (← ByteReader.parameter text start fuel)
      else if name = "table" then return .table (← ByteReader.parameter text start fuel)
      else return ofName name : ByteReader TypeExpr) s) := by
  rw [taken_readPrimary_name]
  split
  · refine .bind (ih.parameter start h hs hf) ?_
    intro ty ts s' _ le there
    exact .pure le there
  · split
    · refine .bind (ih.parameter start h hs hf) ?_
      intro ty ts s' _ le there
      exact .pure le there
    · exact .pure (Nat.le_refl _) h

theorem primary_succ (ih : Faithful text fuel) : Follows text start 1 (fuel + 1)
    (ByteReader.primary text start (fuel + 1)) fun ts => taken (readPrimary ts) := by
  have paren : ('(', Token.openParen) ∈ symbols := by decide
  have bracket : ('[', Token.openBracket) ∈ symbols := by decide
  intro s ts h hs hf
  unfold ByteReader.primary
  show Agrees text s.pos (taken (readPrimary ts)) _
  obtain ⟨s', b, hp, le, seen⟩ := peek_eq h
  have behind : start < s'.next.pos := Nat.lt_succ_of_le (Nat.le_trans hs le)
  have further : s.pos ≤ s'.next.pos := Nat.le_succ_of_le le
  refine .of_eq hp ?_
  split
  · obtain ⟨more, rfl, there⟩ := seen.of_symbol paren
    rw [List.length_cons] at hf
    exact .of_eq (modify_eq _ _) ((ih.agrees_parens there behind (by omega)).mono further)
  · obtain ⟨more, rfl, there⟩ := seen.of_symbol bracket
    rw [List.length_cons] at hf
    exact .of_eq (modify_eq _ _) ((ih.agrees_tuple there behind (by omega)).mono further)
  · next c hb hb' =>
    split
    · next hc =>
      obtain ⟨rest, before, rfl⟩ := seen.of_name hc
      obtain ⟨t, hname, le', there⟩ := takeName_eq before hc
      rw [List.length_cons] at hf
      exact .of_eq hname ((ih.agrees_name there (by omega) (by omega)).mono (by omega))
    · next hc =>
      obtain ⟨there, pos⟩ := seen.stands
      obtain ⟨l, more, rfl, hn⟩ := seen.eq_cons (by simpa using hc)
      have hp := seen.endsAt paren (by simpa using hb) l rfl
      have hq := seen.endsAt bracket (by simpa using hb') l rfl
      rw [taken_readPrimary_other ⟨by simpa using hp, by simpa using hq, hn⟩]
      exact .refuse there pos
  · obtain ⟨there, pos⟩ := seen.stands
    cases seen
    rw [readPrimary]
    exact .refuse there pos

end Faithful

theorem follows_zero {start need : Nat} {x : ByteReader α}
    {r : List Lexeme → Except Stop (α × List Lexeme)} : Follows text start need 0 x r :=
  fun _ _ _ _ hf => absurd hf (Nat.not_lt_zero _)

theorem faithful (text : String) (fuel : Nat) : Faithful text fuel := by
  induction fuel with
  | zero =>
    exact ⟨fun _ _ _ _ _ hf => absurd hf (Nat.not_lt_zero _), fun _ => follows_zero,
      fun _ => follows_zero, fun _ => follows_zero, fun _ => follows_zero, fun _ => follows_zero,
      fun _ => follows_zero, fun _ => follows_zero, fun _ => follows_zero⟩
  | succ fuel ih =>
    exact ⟨fun _ _ _ => ih.union_succ, fun _ => ih.alternatives_succ, fun _ => ih.intersection_succ,
      fun _ => ih.operands_succ, fun _ => ih.suffixed_succ, ih.suffixes_succ,
      fun _ => ih.primary_succ, fun _ => ih.elements_succ, fun _ => ih.parameter_succ⟩

/-- The type that all of the tokens are. -/
def readWhole (ts : List Lexeme) : Except Stop (TypeExpr × List Lexeme) := do
  let (ty, rest) ← taken (readUnion ts)
  if rest = [] then return (ty, []) else throw ⟨.trailingInput, rest⟩

theorem agrees_whole {fuel : Nat} (h : Stands text s ts) (hf : 5 * ts.length + 4 < fuel) :
    Agrees text s.pos (readWhole ts) (whole text fuel s) := by
  unfold readWhole whole
  refine .bind ((faithful text fuel).union h nofun hf) ?_
  intro ty rest s' _ le there
  obtain ⟨s'', b, hp, le', seen⟩ := peek_eq there
  have behind := seen.stands
  refine .of_eq hp ?_
  cases b with
  | none =>
    cases seen
    exact .pure (Nat.le_trans le le') behind.1
  | some c =>
    have more : rest ≠ [] := by
      rintro rfl
      cases seen
    dsimp only
    rw [if_neg more]
    exact .refuse behind.1 behind.2

end ByteReader

/-! ## The whole text -/

theorem utf8ByteSize_of_before {text : String} {pos : Nat} {rest : List Char}
    (h : Before text pos rest) : text.utf8ByteSize = pos + byteLength rest := by
  induction rest generalizing pos with
  | nil => exact h.eq_size.symm
  | cons c rest ih =>
    rw [ih h.next]
    show _ = pos + (c.utf8Size + byteLength rest)
    rw [Nat.add_assoc]

theorem byteLength_toList (text : String) : byteLength text.toList = text.utf8ByteSize := by
  rw [utf8ByteSize_of_before (.zero text), Nat.zero_add]

theorem byteLength_dropWhile_le (p : Char → Bool) (cs : List Char) :
    byteLength (cs.dropWhile p) ≤ byteLength cs := by
  induction cs with
  | nil => exact Nat.le_refl _
  | cons c cs ih =>
    rw [List.dropWhile_cons]
    split
    · exact Nat.le_trans ih (Nat.le_add_left _ _)
    · exact Nat.le_refl _

theorem length_scan_le (offset : Nat) (cs : List Char) :
    (scan offset cs).length ≤ byteLength cs := by
  fun_induction scan offset cs with
  | case1 => exact Nat.le_refl _
  | case2 offset c rest hb ih => exact Nat.le_trans ih (Nat.le_add_left _ _)
  | case3 offset c rest hb hn name ih =>
    have le := Nat.le_trans ih (byteLength_dropWhile_le continuesName rest)
    have size := c.utf8Size_pos
    show _ + 1 ≤ c.utf8Size + byteLength rest
    omega
  | case4 offset c rest hb hn ih =>
    have size := c.utf8Size_pos
    show _ + 1 ≤ c.utf8Size + byteLength rest
    omega

theorem stands_initial (text : String) : Stands text .initial (scan 0 text.toList) := by
  have sound : (Event.reach 0).Sound text := String.Pos.Raw.isValid_zero
  exact ⟨text.toList, ⟨.zero text, List.forall_mem_singleton.2 sound⟩, rfl⟩

/-- What a text is read as is what all of its tokens are, or where they stop being a type. -/
theorem parse_eq_readWhole (text : String) :
    parse text = match ByteReader.readWhole (scan 0 text.toList) with
      | .ok (ty, _) => .ok ty
      | .error stop => .error ⟨text, offsetOf text.utf8ByteSize stop.rest, stop.cause⟩ := by
  rw [parse, ByteReader.readWhole, byteLength_toList]
  dsimp only
  cases readUnion (scan 0 text.toList) with
  | error stop => rfl
  | ok r => obtain ⟨⟨ty, _ | _⟩, h⟩ := r <;> rfl

/-- With fuel for every byte the reader on bytes has the result of the reader on tokens, and stands
behind sound steps. -/
theorem whole_eq (text : String) {fuel : Nat} (h : 5 * text.utf8ByteSize + 4 < fuel) :
    ∃ last ts, ByteReader.whole text fuel .initial = ((parse text).mapError .refused, last) ∧
      Stands text last ts ∧ ∀ e, parse text = .error e → e.input = text ∧ e.offset = last.pos := by
  have few : (scan 0 text.toList).length ≤ text.utf8ByteSize := by
    rw [← byteLength_toList]
    exact length_scan_le 0 _
  have agrees := ByteReader.agrees_whole (stands_initial text)
    (Nat.lt_of_le_of_lt (Nat.add_le_add_right (Nat.mul_le_mul_left 5 few) 4) h)
  have read := parse_eq_readWhole text
  cases hr : ByteReader.readWhole (scan 0 text.toList) with
  | ok r =>
    obtain ⟨ty, ts⟩ := r
    rw [hr] at agrees read
    obtain ⟨result, -, there⟩ := agrees
    rw [read]
    exact ⟨_, ts, Prod.ext result rfl, there, nofun⟩
  | error stop =>
    rw [hr] at agrees read
    obtain ⟨result, pos, there⟩ := agrees
    rw [pos] at result
    rw [read]
    refine ⟨_, stop.rest, Prod.ext result rfl, there, ?_⟩
    rintro e he
    cases he
    exact ⟨rfl, pos.symm⟩

/-- **The reader of type expressions stays on the boundaries between characters.** On every text it
comes to an end with the result of `parse`. Each position that it comes to is on a boundary between
characters and not behind the end of the text, each union inside of another one starts behind the
start of that one, and each name is a text between two positions. What it refuses it refuses with the
text and the position that it has come to. -/
theorem parse_on_boundaries (text : String) {fuel : Nat} (h : 5 * text.utf8ByteSize + 4 < fuel) :
    ∃ last, ByteReader.whole text fuel .initial = ((parse text).mapError .refused, last) ∧
      (∀ pos, .reach pos ∈ last.events →
        pos ≤ text.utf8ByteSize ∧ String.Pos.Raw.IsValid text ⟨pos⟩) ∧
      (∀ outer pos, .start (some outer) pos ∈ last.events → outer < pos) ∧
      (∀ left right, .cut left right ∈ last.events → (slice? text left right).isSome) ∧
      ∀ e, parse text = .error e →
        e.input = text ∧ e.offset = last.pos ∧ e.offset ≤ text.utf8ByteSize ∧
          String.Pos.Raw.IsValid text ⟨e.offset⟩ := by
  obtain ⟨last, ts, ran, ⟨rest, there, -⟩, refuses⟩ := whole_eq text h
  refine ⟨last, ran, fun pos hp => ?_, fun outer pos hp => ?_, fun left right hc => ?_,
    fun e he => ?_⟩
  · have valid : String.Pos.Raw.IsValid text ⟨pos⟩ := there.sound _ hp
    exact ⟨valid.le_utf8ByteSize, valid⟩
  · exact (there.sound _ hp).2 outer rfl
  · exact (there.sound _ hc).2.2
  · obtain ⟨input, offset⟩ := refuses e he
    have valid := there.before.isValid
    rw [← offset] at valid
    exact ⟨input, offset, valid.le_utf8ByteSize, valid⟩

/-- A letter of two bytes in the second bracket is where reading stops. -/
theorem parse_on_boundaries_letter :
    (5 * "map<[é]>".utf8ByteSize + 4 < 60 ∧
        parse "map<[é]>" = .error ⟨"map<[é]>", 5, .unexpectedCharacter⟩) ∧
      ∃ last, ByteReader.whole "map<[é]>" 60 .initial =
          ((parse "map<[é]>").mapError .refused, last) ∧
        (∀ pos, .reach pos ∈ last.events →
          pos ≤ "map<[é]>".utf8ByteSize ∧ String.Pos.Raw.IsValid "map<[é]>" ⟨pos⟩) ∧
        (∀ outer pos, .start (some outer) pos ∈ last.events → outer < pos) ∧
        (∀ left right, .cut left right ∈ last.events → (slice? "map<[é]>" left right).isSome) ∧
        ∀ e, parse "map<[é]>" = .error e →
          e.input = "map<[é]>" ∧ e.offset = last.pos ∧ e.offset ≤ "map<[é]>".utf8ByteSize ∧
            String.Pos.Raw.IsValid "map<[é]>" ⟨e.offset⟩ :=
  ⟨⟨by decide, by decide +kernel⟩, parse_on_boundaries "map<[é]>" (by decide)⟩

end FunctionApp.TypeExpr
