import FunctionApp.Yaml.Token.Scan

/-!
# Plain scalars of one line

Whether a text may be written plain is settled by the text alone (`isPlain`): such a text is read
back as it is at the end of a line, whatever lines follow, as long as the first of them that is not
empty starts left of the scalar's block (`readPlain_line`).
-/

namespace FunctionApp.Yaml

/-! ## Places -/

theorem byteCount_append (w r : List Char) : byteCount (w ++ r) = byteCount w + byteCount r := by
  induction w with
  | nil => simp [byteCount]
  | cons c w ih => simp [byteCount, ih, Nat.add_assoc]

namespace Cursor

variable {p : Char → Bool} {w r : List Char} {o l c : Nat}

theorem advance_append (w r : List Char) (o l c : Nat) :
    advance w.length ⟨w ++ r, o, l, c⟩ = ⟨r, o + byteCount w, l, c + w.length⟩ := by
  simp [advance]

theorem advance_one (d : Char) (r : List Char) (o l c : Nat) :
    advance 1 ⟨d :: r, o, l, c⟩ = ⟨r, o + d.utf8Size, l, c + 1⟩ := by
  simp [advance, byteCount]

theorem moveTo_append (w r : List Char) (o l c : Nat) :
    moveTo r ⟨w ++ r, o, l, c⟩ = ⟨r, o + byteCount w, l, c + w.length⟩ := by
  rw [moveTo]
  simp only [List.length_append, Nat.add_sub_cancel]
  exact advance_append w r o l c

theorem skipWhile_append (hw : ∀ d ∈ w, p d = true) (hr : ∀ d ∈ r.head?, p d = false) :
    skipWhile p ⟨w ++ r, o, l, c⟩ = ⟨r, o + byteCount w, l, c + w.length⟩ := by
  have taken : (w ++ r).takeWhile p = w := by
    rw [List.takeWhile_append_of_pos hw]
    cases r with
    | nil => simp
    | cons d r => simp [hr d rfl]
  rw [skipWhile]
  simp only [taken]
  exact advance_append w r o l c

theorem skipWhile_of_head? (hr : ∀ d ∈ r.head?, p d = false) :
    skipWhile p ⟨r, o, l, c⟩ = ⟨r, o, l, c⟩ := by
  have h := skipWhile_append (w := []) (o := o) (l := l) (c := c) nofun hr
  simpa [byteCount] using h

/-- The place behind spaces and line feeds. -/
def passed : List Char → Cursor → Cursor
  | [], at_ => at_
  | c :: z, at_ => passed z (if c = '\n' then at_.takeBreak.2 else at_.advance 1)

theorem atDocumentMark_of_column {s : Cursor} (h : 0 < s.column) : s.atDocumentMark = false := by
  rw [atDocumentMark]
  simp [Nat.ne_of_gt h]

end Cursor

/-- Whether a text is at its end or starts with something else than a blank. -/
def atVisible (cs : List Char) : Bool := cs.isEmpty || !atBlank cs

theorem atBlank_cons_eq_false {c : Char} {r : List Char} :
    atBlank (c :: r) = false ↔ isSpaceOrTab c = false ∧ isBreak c = false := by
  rw [atBlank, Bool.or_eq_false_iff]

theorem atVisible_cons {c : Char} {r : List Char} :
    atVisible (c :: r) = true ↔ isSpaceOrTab c = false ∧ isBreak c = false := by
  rw [← atBlank_cons_eq_false (r := r)]
  simp [atVisible]

/-! ## Texts that may be written plain -/

/-- Whether a plain scalar may start with a character before a text, inside a block. -/
def opensPlain (c : Char) (rest : List Char) : Bool :=
  if c == '-' || c == '?' || c == ':' then !atBlank rest else Scan.startsPlain false c rest

/-- Whether a plain scalar may go on with a text up to the end of its line: the text has no line
break, a colon only before something that is no blank, a number sign only behind something that is
no blank, and no blank at its end. -/
def continuesPlain : Bool → List Char → Bool
  | wasBlank, [] => !wasBlank
  | wasBlank, c :: rest =>
    !isBreak c && !(wasBlank && c == '#') && !(c == ':' && atBlank rest) &&
      continuesPlain (isSpaceOrTab c) rest

/-- Whether a text may be written plain in a line of its own. -/
def isPlain : List Char → Bool
  | [] => false
  | c :: rest => opensPlain c rest && continuesPlain false (c :: rest) && (c :: rest).all isAllowed

variable {t r : List Char} {c : Char} {wasBlank : Bool}

theorem isPlain_cons : isPlain (c :: t) = true ↔ opensPlain c t = true ∧
    continuesPlain false (c :: t) = true ∧ (c :: t).all isAllowed = true := by
  rw [isPlain, Bool.and_eq_true, Bool.and_eq_true, and_assoc]

/-- The characters that have a meaning of their own at the start of a scalar. -/
def indicators : List Char := "-?:,[]\x7b\x7d#&*!|>'\"%@\x60".toList

/-- A plain text starts with no indicator, other than one that something follows. -/
theorem opensPlain_cases (h : opensPlain c t = true) :
    (c = '-' ∨ c = '?' ∨ c = ':') ∧ atBlank t = false ∨
      indicators.contains c = false ∧ isSpaceOrTab c = false ∧ isBreak c = false := by
  by_cases hc : c = '-' ∨ c = '?' ∨ c = ':'
  · refine .inl ⟨hc, ?_⟩
    rcases hc with rfl | rfl | rfl
    all_goals simpa [opensPlain] using h
  · obtain ⟨h1, h2, h3⟩ : c ≠ '-' ∧ c ≠ '?' ∧ c ≠ ':' := by simpa using hc
    have starts : Scan.startsPlain false c t = true := by simpa [opensPlain, h1, h2, h3] using h
    rw [Scan.startsPlain, if_neg (by simpa using h1), if_neg (by simp [h2, h3])] at starts
    simp only [Bool.and_eq_true, Bool.not_eq_true'] at starts
    exact .inr ⟨starts.1.1, starts.1.2, starts.2⟩

/-- What a plain text starts with is neither a blank nor the mark of a comment. -/
theorem visible_of_opensPlain (h : opensPlain c t = true) : atBlank (c :: t) = false ∧ c ≠ '#' := by
  rw [atBlank_cons_eq_false]
  rcases opensPlain_cases h with ⟨rfl | rfl | rfl, -⟩ | ⟨hc, visible⟩
  · decide
  · decide
  · decide
  · refine ⟨visible, ?_⟩
    rintro rfl
    revert hc
    decide

theorem atBlank_append (h : atBlank t = false) : atBlank (t ++ r) = false := by
  cases t with
  | nil => cases h
  | cons c t => exact h

theorem continuesPlain_cons : continuesPlain wasBlank (c :: t) = true ↔
    isBreak c = false ∧ (c = '#' → wasBlank = false) ∧ (c = ':' → atBlank t = false) ∧
      continuesPlain (isSpaceOrTab c) t = true := by
  have swap : (wasBlank = false ∨ ¬c = '#') ↔ (c = '#' → wasBlank = false) := by grind
  have imp : (¬c = ':' ∨ atBlank t = false) ↔ (c = ':' → atBlank t = false) := by grind
  simp [continuesPlain, and_assoc, swap, imp]

theorem noBreak_of_continuesPlain (h : continuesPlain wasBlank t = true) :
    ∀ c ∈ t, isBreak c = false := by
  induction t generalizing wasBlank with
  | nil => nofun
  | cons d t ih =>
    obtain ⟨noBreak, -, -, tail⟩ := continuesPlain_cons.1 h
    rintro c (_ | ⟨_, hc⟩)
    · exact noBreak
    · exact ih tail c hc

theorem isAllowed_of_isPlain (h : isPlain t = true) : ∀ c ∈ t, isAllowed c = true := by
  cases t with
  | nil => nofun
  | cons c t => exact List.all_eq_true.1 (isPlain_cons.1 h).2.2

theorem noBreak_of_isPlain (h : isPlain t = true) : ∀ c ∈ t, isBreak c = false := by
  cases t with
  | nil => nofun
  | cons c t => exact noBreak_of_continuesPlain (isPlain_cons.1 h).2.1

theorem plainWord_of_atBlank (hr : atBlank r = true) : plainWord false r = .ok ([], r) := by
  cases r with
  | nil => rfl
  | cons d r =>
    rw [atBlank] at hr
    rw [plainWord, if_pos hr]

/-- A word of a plain text is taken up to where a word stops. -/
theorem plainWord_append (w : List Char) (hw : ∀ c ∈ w, isSpaceOrTab c = false)
    (ht : continuesPlain wasBlank (w ++ t) = true)
    (stop : plainWord false (t ++ r) = .ok ([], t ++ r)) :
    plainWord false (w ++ (t ++ r)) = .ok (w, t ++ r) := by
  induction w generalizing wasBlank with
  | nil => exact stop
  | cons d w ih =>
    rw [List.cons_append, continuesPlain_cons] at ht
    obtain ⟨noBreak, -, colon, tail⟩ := ht
    have inner : (d == ':' && atBlank (w ++ (t ++ r))) = false := by
      by_cases hd : d = ':'
      · rw [← List.append_assoc, atBlank_append (colon hd), Bool.and_false]
      · simp [hd]
    rw [List.cons_append, plainWord, if_neg (by simp [hw d (.head _), noBreak]), if_neg (by simp),
      if_neg (by simpa using inner), ih (fun c hc => hw c (.tail _ hc)) tail]
    rfl

/-! ## Gaps -/

namespace Gap

variable {indent : Int} {fuel o l n : Nat}

/-- The blanks inside a line. -/
theorem read_blanks {b bl : List Char} (hb : ∀ c ∈ b, isSpaceOrTab c = true)
    (hr : atBlank r = false) (hf : b.length ≤ fuel) :
    read indent fuel ⟨bl, [], [], false⟩ ⟨b ++ r, o, l, n⟩ =
      .ok (⟨b.reverse ++ bl, [], [], false⟩, ⟨r, o + byteCount b, l, n + b.length⟩) := by
  induction b generalizing bl fuel o n with
  | nil =>
    cases r with
    | nil => cases hr
    | cons c r =>
      cases fuel with
      | zero => rfl
      | succ fuel =>
        rw [atBlank_cons_eq_false] at hr
        simp [read, hr.1, hr.2, byteCount]
  | cons c b ih =>
    obtain ⟨fuel, rfl⟩ : ∃ k, fuel = k + 1 := ⟨fuel - 1, by simp at hf; omega⟩
    simp only [List.cons_append, read, hb c (.head _), if_true, Cursor.advance_one]
    rw [if_neg (by simp), ih (fun d hd => hb d (.tail _ hd)) (by simpa using hf)]
    simp [byteCount, Nat.add_assoc, Nat.add_comm 1]

/-- The empty lines behind a line, and the blanks before the next text. -/
theorem read_passed {z : List Char} {gap : Gap} (hz : ∀ c ∈ z, c = ' ' ∨ c = '\n')
    (hr : atVisible r = true) (hg : gap.broken = true) (hf : z.length ≤ fuel) (at_ : Cursor)
    (ha : at_.rest = z ++ r) :
    ∃ gap', gap'.broken = true ∧ read indent fuel gap at_ = .ok (gap', at_.passed z) := by
  induction z generalizing gap fuel at_ with
  | nil =>
    refine ⟨gap, hg, ?_⟩
    cases fuel with
    | zero => rfl
    | succ fuel =>
      rw [List.nil_append] at ha
      rw [read, ha]
      cases r with
      | nil => rfl
      | cons c r =>
        rw [atVisible_cons] at hr
        simp only [hr.1, hr.2]
        rfl
  | cons c z ih =>
    obtain ⟨fuel, rfl⟩ : ∃ k, fuel = k + 1 := ⟨fuel - 1, by simp at hf; omega⟩
    have hz' : ∀ c ∈ z, c = ' ' ∨ c = '\n' := fun d hd => hz d (.tail _ hd)
    have hf' : z.length ≤ fuel := by simpa using hf
    obtain ⟨rest, o, l, n⟩ := at_
    obtain rfl : rest = c :: (z ++ r) := ha
    obtain rfl | rfl := hz c (.head _)
    · obtain ⟨gap', hb, hd⟩ := ih hz' hg hf' (Cursor.advance 1 ⟨' ' :: (z ++ r), o, l, n⟩) rfl
      refine ⟨gap', hb, ?_⟩
      rw [read, hg]
      exact hd
    · obtain ⟨gap', hb, hd⟩ := ih hz'
        (show (⟨gap.blanks, gap.first, '\n' :: gap.more, true⟩ : Gap).broken = true from rfl) hf'
        (Cursor.takeBreak ⟨'\n' :: (z ++ r), o, l, n⟩).2 rfl
      refine ⟨gap', hb, ?_⟩
      rw [read, hg]
      exact hd

end Gap

/-! ## Reading plain scalars -/

theorem continuesPlain_of_append {w : List Char}
    (h : continuesPlain wasBlank (w ++ c :: t) = true) :
    continuesPlain (isSpaceOrTab c) t = true := by
  induction w generalizing wasBlank with
  | nil => exact (continuesPlain_cons.1 h).2.2.2
  | cons d w ih => exact ih (continuesPlain_cons.1 h).2.2.2

/-- Behind a blank a plain text goes on with a word that starts no comment. -/
theorem of_continuesPlain_true (h : continuesPlain true t = true)
    (hb : t.head?.any isSpaceOrTab = false) :
    atBlank t = false ∧ t.head? ≠ some '#' := by
  cases t with
  | nil => cases h
  | cons c t =>
    obtain ⟨noBreak, noMark, -, -⟩ := continuesPlain_cons.1 h
    refine ⟨by simpa [atBlank, noBreak] using hb, fun e => ?_⟩
    exact absurd (noMark (Option.some.inj e)) (by simp)

/-- A plain text is a single word, or a word with blanks and a further plain text behind it. -/
theorem words_of_continuesPlain (h : continuesPlain wasBlank t = true) :
    (∀ c ∈ t, isSpaceOrTab c = false) ∨
      ∃ w b u, t = w ++ (b ++ u) ∧ (∀ c ∈ w, isSpaceOrTab c = false) ∧
        (∀ c ∈ b, isSpaceOrTab c = true) ∧ b ≠ [] ∧ continuesPlain true u = true ∧
        atBlank u = false ∧ u.head? ≠ some '#' := by
  induction t generalizing wasBlank with
  | nil => exact .inl nofun
  | cons c t ih =>
    cases hc : isSpaceOrTab c with
    | true =>
      let b := t.takeWhile isSpaceOrTab
      let u := t.dropWhile isSpaceOrTab
      have split : c :: t = (c :: b) ++ u := by simp [b, u]
      have blanks : ∀ d ∈ c :: b, isSpaceOrTab d = true := by
        rintro d (_ | ⟨_, hd⟩)
        · exact hc
        · exact List.all_eq_true.1 List.all_takeWhile d hd
      have further : continuesPlain true u = true := by
        obtain ⟨front, last, e⟩ : ∃ front last, c :: b = front ++ [last] :=
          ⟨_, _, (List.dropLast_concat_getLast (List.cons_ne_nil c b)).symm⟩
        rw [split, e, List.append_assoc] at h
        have after := continuesPlain_of_append h
        rwa [blanks last (by simp [e])] at after
      have first : u.head?.any isSpaceOrTab = false := by
        have stop := List.head?_dropWhile_not isSpaceOrTab t
        cases hu : u.head? with
        | none => rfl
        | some d =>
          rw [hu] at stop
          exact stop
      obtain ⟨visible, noMark⟩ := of_continuesPlain_true further first
      exact .inr
        ⟨[], c :: b, u, split, nofun, blanks, List.cons_ne_nil _ _, further, visible, noMark⟩
    | false =>
      rcases ih (continuesPlain_cons.1 h).2.2.2 with word | ⟨w, b, u, rfl, hw, more⟩
      · refine .inl ?_
        rintro d (_ | ⟨_, hd⟩)
        · exact hc
        · exact word d hd
      · refine .inr ⟨c :: w, b, u, rfl, ?_, more⟩
        rintro d (_ | ⟨_, hd⟩)
        · exact hc
        · exact hw d hd

theorem readPlain_word {w : List Char} {indent : Int} {fuel : Nat} {done : List Char} {gap : Gap}
    {s : Cursor} (hs : s.atDocumentMark = false) (hw : w ≠ []) (visible : s.rest.head? ≠ some '#')
    (word : plainWord false s.rest = .ok (w, r)) :
    readPlain false indent (fuel + 1) done gap s =
      if r.isEmpty || !atBlank r then
        .ok ((w.reverse ++ gap.text.reverse ++ done).reverse, s.moveTo r, false)
      else
        (Gap.empty.read indent r.length (s.moveTo r)).bind fun (next, at_) =>
          if (at_.column : Int) < indent then
            .ok ((w.reverse ++ gap.text.reverse ++ done).reverse, at_, next.broken)
          else readPlain false indent fuel (w.reverse ++ gap.text.reverse ++ done) next at_ := by
  rw [readPlain]
  have first : (s.rest.head? == some '#') = false := by simpa using visible
  have some : w.isEmpty = false := by simpa using hw
  simp only [hs, first, word, bind, Except.bind, some, pure, Except.pure, Bool.or_self,
    Bool.not_false, Bool.true_and, Bool.false_eq_true, if_false, decide_eq_true_eq]
  rfl

section Line

variable {z : List Char} {indent : Int} {fuel o l n : Nat} {done : List Char} {gap : Gap}

/-- The last word of a line: the place behind it is that of the next text, left of the block. -/
theorem readPlain_lastWord (ht : continuesPlain wasBlank t = true)
    (word : ∀ c ∈ t, isSpaceOrTab c = false) (visible : atBlank t = false)
    (noMark : t.head? ≠ some '#')
    (hz : ∀ c ∈ z, c = ' ' ∨ c = '\n') (hr : atVisible r = true)
    (left : ∀ o l, ((Cursor.passed z ⟨z ++ r, o, l, 0⟩).column : Int) < indent) (hn : 0 < n) :
    readPlain false indent (fuel + 1) done gap ⟨t ++ '\n' :: (z ++ r), o, l, n⟩ =
      .ok ((t.reverse ++ gap.text.reverse ++ done).reverse,
        Cursor.passed z ⟨z ++ r, o + byteCount t + 1, l + 1, 0⟩, true) := by
  have some : t ≠ [] := by
    rintro rfl
    cases visible
  have first : (t ++ '\n' :: (z ++ r)).head? ≠ Option.some '#' := by
    rw [List.head?_append, List.head?_eq_some_head some]
    rwa [List.head?_eq_some_head some] at noMark
  have taken : plainWord false (t ++ '\n' :: (z ++ r)) = .ok (t, '\n' :: (z ++ r)) :=
    plainWord_append (t := []) t word (by rwa [List.append_nil]) (plainWord_of_atBlank rfl)
  obtain ⟨next, broken, behind⟩ : ∃ next, next.broken = true ∧
      Gap.read indent (z ++ r).length ⟨[], ['\n'], [], true⟩
          ⟨z ++ r, o + byteCount t + 1, l + 1, 0⟩ =
        .ok (next, Cursor.passed z ⟨z ++ r, o + byteCount t + 1, l + 1, 0⟩) :=
    Gap.read_passed hz hr rfl (by simp) _ rfl
  have read : Gap.empty.read indent ('\n' :: (z ++ r)).length
      ⟨'\n' :: (z ++ r), o + byteCount t, l, n + t.length⟩ =
        .ok (next, Cursor.passed z ⟨z ++ r, o + byteCount t + 1, l + 1, 0⟩) := behind
  rw [readPlain_word (Cursor.atDocumentMark_of_column hn) some first taken,
    if_neg (by simp [atBlank, isBreak]), Cursor.moveTo_append, read]
  simp only [Except.bind]
  rw [if_pos (left _ _), broken]

/-- A word with blanks and further text behind it in its line. -/
theorem readPlain_nextWord {w b u : List Char} (ht : continuesPlain wasBlank (w ++ (b ++ u)) = true)
    (hw : ∀ c ∈ w, isSpaceOrTab c = false) (hb : ∀ c ∈ b, isSpaceOrTab c = true) (some : b ≠ [])
    (visible : atBlank (w ++ (b ++ u)) = false) (noMark : (w ++ (b ++ u)).head? ≠ Option.some '#')
    (next : atBlank (u ++ r) = false) (right : indent ≤ n) (hn : 0 < n) :
    readPlain false indent (fuel + 1) done gap ⟨w ++ (b ++ u) ++ r, o, l, n⟩ =
      readPlain false indent fuel (w.reverse ++ gap.text.reverse ++ done) ⟨b.reverse, [], [], false⟩
        ⟨u ++ r, o + byteCount w + byteCount b, l, n + w.length + b.length⟩ := by
  have blank : atBlank (b ++ (u ++ r)) = true := by
    cases b with
    | nil => exact absurd rfl some
    | cons c b => simp [atBlank, hb c (.head _)]
  have hne : w ≠ [] := by
    rintro rfl
    cases b with
    | nil => exact some rfl
    | cons c b => simp [atBlank, hb c (.head _)] at visible
  have first : (w ++ (b ++ (u ++ r))).head? ≠ Option.some '#' := by
    rw [List.head?_append, List.head?_eq_some_head hne] at noMark ⊢
    exact noMark
  have taken : plainWord false (w ++ (b ++ (u ++ r))) = .ok (w, b ++ (u ++ r)) := by
    have := plainWord_append (t := b ++ u) (r := r) w hw ht
    rw [List.append_assoc] at this
    exact this (plainWord_of_atBlank blank)
  have whole : w ++ (b ++ u) ++ r = w ++ (b ++ (u ++ r)) := by simp
  rw [whole, readPlain_word (Cursor.atDocumentMark_of_column hn) hne first taken,
    if_neg (by simp [blank, some]), Cursor.moveTo_append,
    Gap.empty, Gap.read_blanks hb next (by simp)]
  simp only [Except.bind, List.append_nil]
  rw [if_neg (by push_cast; omega)]

/-- A plain text is read back as it is at the end of its line, and the place behind it is that of
the next text, which is left of the block. -/
theorem readPlain_line (ht : continuesPlain wasBlank t = true) (visible : atBlank t = false)
    (noMark : t.head? ≠ some '#') (hz : ∀ c ∈ z, c = ' ' ∨ c = '\n') (hr : atVisible r = true)
    (left : ∀ o l, ((Cursor.passed z ⟨z ++ r, o, l, 0⟩).column : Int) < indent) (right : indent ≤ n)
    (hn : 0 < n) (hf : t.length ≤ fuel) :
    readPlain false indent fuel done gap ⟨t ++ '\n' :: (z ++ r), o, l, n⟩ =
      .ok ((t.reverse ++ gap.text.reverse ++ done).reverse,
        Cursor.passed z ⟨z ++ r, o + byteCount t + 1, l + 1, 0⟩, true) := by
  -- The induction takes one word of the text in each step.
  induction fuel generalizing t wasBlank o n done gap with
  | zero =>
    obtain rfl := List.eq_nil_of_length_eq_zero (Nat.le_zero.1 hf)
    cases visible
  | succ fuel ih =>
    rcases words_of_continuesPlain ht with
      word | ⟨w, b, u, rfl, hw, hb, some, further, next, noNext⟩
    · exact readPlain_lastWord ht word visible noMark hz hr left hn
    · rw [readPlain_nextWord ht hw hb some visible noMark (atBlank_append next) right hn,
        ih further next noNext (by push_cast; omega) (by omega)
          (by
            have := List.length_pos_iff.2 some
            simp only [List.length_append] at hf
            omega)]
      simp [Gap.text, byteCount_append, Nat.add_assoc]

end Line

end FunctionApp.Yaml
