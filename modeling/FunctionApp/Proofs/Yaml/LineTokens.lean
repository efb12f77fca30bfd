import FunctionApp.Proofs.Yaml.Lines

/-!
# Scanning documents in lines

A scan that is outside flow collections and has no possible key is told by its place and by the
blocks that are open (`Outline.scan`). From the start of a line it comes to the start of the next
one with the tokens that the outline of the line gives (`leads_line`), whatever follows. So the
tokens of a document in lines are those of its lines (`tokens_print`).
-/

namespace FunctionApp.Yaml

/-! ## Blanks between lines -/

namespace Outline

/-- The scan at a place outside flow collections and without a possible key. -/
def scan (b : Outline) (at_ : Cursor) (keyAllowed : Bool) : Scan :=
  ⟨at_, b.tokens, b.tokens.length, b.indent, b.outer, [none], keyAllowed⟩

/-- The scan behind a word of a line, which may be a key. -/
def behindWord (b : Outline) (w r : List Char) (offset line column : Nat) : Scan :=
  ⟨⟨r, offset + byteCount w, line, column + w.length⟩,
    .scalar (String.ofList w) .plain line :: b.tokens, b.tokens.length + 1, b.indent, b.outer,
    [some ⟨b.tokens.length, b.indent == column, offset, line, column⟩], false⟩

end Outline

namespace Scan

/-- The scan behind the blanks and comments before the next token. -/
def settled (s : Scan) : Scan := s.skipBlanks (s.at_.rest.length + 1)

theorem length_takeBreak {s : Cursor} (h : s.rest.head?.any isBreak = true) :
    s.takeBreak.2.rest.length < s.rest.length := by
  unfold Cursor.takeBreak
  split
  · next hr =>
    simp only [hr, List.length_cons]
    omega
  · next c rest _ hr =>
    rw [hr] at h
    rw [if_pos (by simpa using h), hr]
    simp
  · next hr => simp [hr] at h

theorem length_advance (n : Nat) (s : Cursor) : (s.advance n).rest.length ≤ s.rest.length := by
  simp [Cursor.advance]

/-- As many steps as there are characters are enough. -/
theorem skipBlanks_fuel {n m : Nat} {s : Scan} (hn : s.at_.rest.length < n)
    (hm : s.at_.rest.length < m) : s.skipBlanks n = s.skipBlanks m := by
  induction n generalizing m s with
  | zero => exact absurd hn (Nat.not_lt_zero _)
  | succ n ih =>
    obtain ⟨m, rfl⟩ : ∃ k, m = k + 1 := ⟨m - 1, by omega⟩
    simp only [skipBlanks]
    generalize ha : (if s.at_.column == 0 && s.at_.rest.head? == some '\ufeff' then s.at_.advance 1
      else s.at_) = a
    generalize hb :
      a.skipWhile (fun c => c == ' ' || ((s.inFlow || !s.keyAllowed) && c == '\t')) = b
    generalize hc : (if b.rest.head? == some '#' then b.skipLine else b) = c
    split
    · next broken =>
      have short : c.takeBreak.2.rest.length < s.at_.rest.length := by
        have := length_takeBreak broken
        have h1 : a.rest.length ≤ s.at_.rest.length := by
          rw [← ha]
          split
          · exact length_advance _ _
          · exact Nat.le_refl _
        have h2 : b.rest.length ≤ a.rest.length := hb ▸ length_advance _ _
        have h3 : c.rest.length ≤ b.rest.length := by
          rw [← hc]
          split
          · exact length_advance _ _
          · exact Nat.le_refl _
        omega
      exact ih (by dsimp only; omega) (by dsimp only; omega)
    · rfl

theorem settled_eq {s s' : Scan} {n m : Nat} (hn : s.at_.rest.length < n)
    (hm : s'.at_.rest.length < m) (h : s.skipBlanks n = s'.skipBlanks m) :
    s.settled = s'.settled := by
  rw [settled, settled, skipBlanks_fuel (Nat.lt_succ_self _) hn, h,
    skipBlanks_fuel (Nat.lt_succ_self _) hm]

section Blanks

variable {b : Outline} {r t : List Char} {o l n : Nat} {keyAllowed : Bool}

/-- One step over blanks, where no byte order mark stands at the start of a line. -/
theorem skipBlanks_scan {at_ : Cursor} (noOrder : at_.rest.head? ≠ some '\ufeff' ∨ at_.column ≠ 0)
    (k : Nat) : (b.scan at_ keyAllowed).skipBlanks (k + 1) =
      let a := at_.skipWhile fun c => c == ' ' || (!keyAllowed && c == '\t')
      let a := if a.rest.head? == some '#' then a.skipLine else a
      if a.rest.head?.any isBreak then (b.scan a.takeBreak.2 true).skipBlanks k
      else b.scan a keyAllowed := by
  have order : (at_.column == 0 && at_.rest.head? == some '\ufeff') = false := by
    rcases noOrder with h | h
    · simp [h]
    · simp [h]
  simp only [skipBlanks, Outline.scan, order, inFlow]
  simp

/-- Where something else than a blank or a comment stands, nothing is skipped. -/
theorem settled_of_atVisible {s : Scan} (hr : atVisible s.at_.rest = true)
    (noMark : s.at_.rest.head? ≠ some '#')
    (noOrder : s.at_.rest.head? ≠ some '\ufeff' ∨ s.at_.column ≠ 0) : s.settled = s := by
  obtain ⟨⟨r, o, l, n⟩, tokens, count, indent, outer, keys, keyAllowed⟩ := s
  have visible : ∀ d ∈ r.head?, isSpaceOrTab d = false ∧ isBreak d = false := by
    cases r with
    | nil => nofun
    | cons c r =>
      rintro _ ⟨⟩
      exact atVisible_cons.1 hr
  have order : (n == 0 && r.head? == some '\ufeff') = false := by
    rcases noOrder with h | h
    · simpa using fun _ => h
    · simp only [beq_eq_false_iff_ne.2 h, Bool.false_and]
  have still (flow : Bool) :
      Cursor.skipWhile (fun c => c == ' ' || (flow && c == '\t')) ⟨r, o, l, n⟩ = ⟨r, o, l, n⟩ := by
    refine Cursor.skipWhile_of_head? fun d hd => ?_
    have blank := (visible d hd).1
    rw [isSpaceOrTab, Bool.or_eq_false_iff] at blank
    simp [blank.1, blank.2]
  have mark : (r.head? == some '#') = false := by simpa using noMark
  have noBreak : r.head?.any isBreak = false := by
    cases hd : r.head? with
    | none => rfl
    | some d => exact (visible d hd).2
  simp only [settled, skipBlanks, order, still, mark, noBreak, Bool.false_eq_true, if_false]

theorem settled_space :
    (b.scan ⟨' ' :: r, o, l, n⟩ keyAllowed).settled =
      (b.scan ⟨r, o + 1, l, n + 1⟩ keyAllowed).settled := by
  refine settled_eq (n := r.length + 2) (m := r.length + 2) (Nat.lt_succ_self _)
    (by dsimp [Outline.scan]; omega) ?_
  have both :
      Cursor.skipWhile (fun c => c == ' ' || (!keyAllowed && c == '\t')) ⟨' ' :: r, o, l, n⟩ =
        Cursor.skipWhile (fun c => c == ' ' || (!keyAllowed && c == '\t'))
          ⟨r, o + 1, l, n + 1⟩ := by
    simp only [Cursor.skipWhile, List.takeWhile_cons, Cursor.advance]
    have width : ' '.utf8Size = 1 := rfl
    simp [byteCount, width]
    omega
  rw [skipBlanks_scan (.inl (by simp)), skipBlanks_scan (.inr (by simp)), both]

theorem settled_lineFeed :
    (b.scan ⟨'\n' :: r, o, l, n⟩ keyAllowed).settled =
      (b.scan ⟨r, o + 1, l + 1, 0⟩ true).settled := by
  refine settled_eq (n := r.length + 2) (m := r.length + 1) (Nat.lt_succ_self _)
    (Nat.lt_succ_self _) ?_
  have still :
      Cursor.skipWhile (fun c => c == ' ' || (!keyAllowed && c == '\t')) ⟨'\n' :: r, o, l, n⟩ =
        ⟨'\n' :: r, o, l, n⟩ := by
    refine Cursor.skipWhile_of_head? ?_
    rintro _ ⟨⟩
    simp
  rw [skipBlanks_scan (.inl (by simp)), still]
  rfl

/-- A comment is skipped with its line. -/
theorem settled_comment (ht : ∀ c ∈ t, isBreak c = false) :
    (b.scan ⟨'#' :: (t ++ '\n' :: r), o, l, n⟩ keyAllowed).settled =
      (b.scan ⟨r, o + byteCount ('#' :: t) + 1, l + 1, 0⟩ true).settled := by
  refine settled_eq (n := t.length + r.length + 3) (m := r.length + 1)
    (by simp [Outline.scan]; omega) (Nat.lt_succ_self _) ?_
  have still : Cursor.skipWhile (fun c => c == ' ' || (!keyAllowed && c == '\t'))
      ⟨'#' :: (t ++ '\n' :: r), o, l, n⟩ = ⟨'#' :: (t ++ '\n' :: r), o, l, n⟩ := by
    refine Cursor.skipWhile_of_head? ?_
    rintro _ ⟨⟩
    simp
  have line : Cursor.skipLine ⟨'#' :: (t ++ '\n' :: r), o, l, n⟩ =
      ⟨'\n' :: r, o + byteCount ('#' :: t), l, n + ('#' :: t).length⟩ := by
    refine Cursor.skipWhile_append (w := '#' :: t) ?_ ?_
    · rintro d (_ | ⟨_, hd⟩)
      · decide
      · simp [ht d hd]
    · rintro _ ⟨⟩
      decide
  rw [skipBlanks_scan (.inl (by simp)), still]
  simp only [List.head?_cons, beq_self_eq_true, if_true, line]
  exact skipBlanks_fuel (s := b.scan ⟨r, o + byteCount ('#' :: t) + 1, l + 1, 0⟩ true)
    (by dsimp [Outline.scan]; omega) (Nat.lt_succ_self _)

theorem settled_spaces (m : Nat) :
    (b.scan ⟨List.replicate m ' ' ++ r, o, l, n⟩ keyAllowed).settled =
      (b.scan ⟨r, o + m, l, n + m⟩ keyAllowed).settled := by
  induction m generalizing o n with
  | zero => rfl
  | succ m ih =>
    rw [List.replicate_succ, List.cons_append, settled_space, ih]
    simp only [Nat.add_assoc, Nat.add_comm 1]

/-- Behind spaces and line feeds the same text is next as before them. -/
theorem settled_passed {z : List Char} (hz : ∀ c ∈ z, c = ' ' ∨ c = '\n') :
    (b.scan (Cursor.passed z ⟨z ++ r, o, l, n⟩) true).settled =
      (b.scan ⟨z ++ r, o, l, n⟩ true).settled := by
  induction z generalizing o l n with
  | nil => rfl
  | cons c z ih =>
    have hz' : ∀ c ∈ z, c = ' ' ∨ c = '\n' := fun d hd => hz d (.tail _ hd)
    obtain rfl | rfl := hz c (.head _)
    · rw [List.cons_append, settled_space, ← ih hz', Cursor.passed, if_neg (by decide),
        Cursor.advance_one]
      rfl
    · rw [List.cons_append, settled_lineFeed, ← ih hz']
      rfl

end Blanks

/-! ## Steps of the scan -/

section Steps

variable {b : Outline} {s s' : Scan} {c : Char} {r : List Char} {at_ : Cursor} {keyAllowed : Bool}
  {k : Nat}

theorem readAll_congr (h : s.settled = s'.settled) : readAll (k + 1) s = readAll (k + 1) s' := by
  rw [readAll, readAll, ← settled, ← settled, h]

theorem expireKeys_scan : (b.scan at_ keyAllowed).expireKeys = .ok (b.scan at_ keyAllowed) := rfl

theorem closeBlocks_scan (column : Int) (tokens : List Token) (indent : Int) (outer : List Int) :
    closeBlocks column (outer.length + 1) (Outline.scan ⟨tokens, indent, outer⟩ at_ keyAllowed) =
      (Outline.closeFrom column tokens indent outer).scan at_ keyAllowed := by
  induction outer generalizing tokens indent with
  | nil =>
    simp only [List.length_nil, closeBlocks, Outline.scan, Outline.closeFrom, inFlow]
    by_cases h : column < indent
    · simp [h, emit]
    · simp [h]
  | cons next outer ih =>
    rw [List.length_cons, closeBlocks, Outline.closeFrom]
    by_cases h : column < indent
    · rw [if_pos (by simp [Outline.scan, inFlow, h]), if_pos h]
      exact ih (.blockEnd :: tokens) next
    · rw [if_neg (by simp [Outline.scan, h]), if_neg h]

theorem closeTo_scan (column : Int) :
    (b.scan at_ keyAllowed).closeTo column = (b.close column).scan at_ keyAllowed :=
  closeBlocks_scan column b.tokens b.indent b.outer

theorem openBlock_scan (column : Nat) (token : Token) :
    (b.scan at_ keyAllowed).openBlock column b.tokens.length token =
      (b.open_ column token).scan at_ keyAllowed := by
  by_cases h : b.indent < column
  · simp [openBlock, Outline.open_, Outline.scan, inFlow, h, insert]
  · simp [openBlock, Outline.open_, Outline.scan, h]

/-- The next token is read where the blanks before it end, inside the blocks that go on there. -/
theorem readAll_of_settled (h : s.settled = b.scan at_ keyAllowed) (hr : at_.rest = c :: r) :
    readAll (k + 1) s =
      (((b.close at_.column).scan at_ keyAllowed).readToken c r).bind (readAll k) := by
  rw [readAll, ← settled, h, expireKeys_scan]
  simp only [bind, Except.bind]
  rw [show (b.scan at_ keyAllowed).at_ = at_ from rfl, closeTo_scan]
  simp only [Outline.scan, hr]

theorem readAll_of_settled_nil (h : s.settled = b.scan at_ keyAllowed) (hr : at_.rest = []) :
    readAll (k + 1) s = .ok ((b.close at_.column).close (-1)).tokens.reverse := by
  rw [readAll, ← settled, h, expireKeys_scan]
  simp only [bind, Except.bind]
  rw [show (b.scan at_ keyAllowed).at_ = at_ from rfl, closeTo_scan, closeTo_scan]
  simp only [Outline.scan, hr]
  rfl

end Steps

/-! ## Steps of a line -/

section Line

variable {b : Outline} {c : Char} {t r : List Char} {o l n k : Nat} {keyAllowed : Bool}

/-- Where a plain scalar may start, one is read. -/
theorem readToken_plain (opens : opensPlain c t = true) {at_ : Cursor}
    (mark : at_.atDocumentMark = false) :
    (b.scan at_ keyAllowed).readToken c (t ++ r) = (b.scan at_ keyAllowed).readPlainScalar := by
  have flow : (b.scan at_ keyAllowed).inFlow = false := rfl
  rcases opensPlain_cases opens with ⟨hc, visible⟩ | ⟨plain, noBlank, noBreak⟩
  · have further : atBlank (t ++ r) = false := atBlank_append visible
    have noBlank : (t ++ r).head?.any isSpaceOrTab = false := by
      cases hd : t ++ r with
      | nil => rfl
      | cons d u =>
        rw [hd, atBlank_cons_eq_false] at further
        exact further.1
    rcases hc with rfl | rfl | rfl
    all_goals
      unfold readToken startsPlain
      rw [flow, further, noBlank]
      simp [Outline.scan, mark]
  · have other (d : Char) (hd : indicators.contains d = true) : c ≠ d := by
      rintro rfl
      exact Bool.false_ne_true (plain.symm.trans hd)
    have starts : startsPlain false c (t ++ r) = true := by
      rw [startsPlain, if_neg (by simpa using other '-' (by decide)),
        if_neg (by simp [other '?' (by decide), other ':' (by decide)])]
      simp only [Bool.and_eq_true, Bool.not_eq_true']
      exact ⟨⟨plain, noBlank⟩, noBreak⟩
    rw [readToken, flow, starts]
    simp [Outline.scan, mark, other '-' (by decide), other '?' (by decide), other ':' (by decide),
      other '%' (by decide), other '[' (by decide), other ']' (by decide), other '\x7b' (by decide),
      other '\x7d' (by decide), other ',' (by decide), other '*' (by decide), other '&' (by decide),
      other '!' (by decide), other '|' (by decide), other '>' (by decide), other '\'' (by decide),
      other '"' (by decide)]

theorem readPlainScalar_eq_ok {s s' : Scan} {text : List Char} {at_ : Cursor} {broken : Bool}
    (saved : s.saveKey = .ok s') (flow : s'.inFlow = false)
    (read : readPlain false (s'.indent + 1) s'.at_.rest.length [] Gap.empty s'.at_ =
      .ok (text, at_, broken)) :
    s.readPlainScalar = .ok { s'.emit (.scalar (String.ofList text) .plain s'.at_.line) with
      at_ := at_, keyAllowed := broken } := by
  rw [readPlainScalar, saved]
  simp only [bind, Except.bind, flow, read]
  rfl

/-- The hyphen of an item. -/
theorem readToken_hyphen (hr : atBlank r = true) :
    (b.scan ⟨'-' :: r, o, l, n⟩ true).readToken '-' r =
      .ok ((b.item n).scan ⟨r, o + 1, l, n + 1⟩ true) := by
  have mark : Cursor.atDocumentMark ⟨'-' :: r, o, l, n⟩ = false := by
    rw [Cursor.atDocumentMark]
    cases r with
    | nil => simp
    | cons c r =>
      have : c ≠ '-' := by
        rintro rfl
        cases hr
      simp [this]
  have step : (b.scan ⟨'-' :: r, o, l, n⟩ true).readToken '-' r =
      (b.scan ⟨'-' :: r, o, l, n⟩ true).readBlockEntry := by
    rw [readToken]
    simp [Outline.scan, hr, mark]
  have opened : (b.scan ⟨'-' :: r, o, l, n⟩ true).openBlock n b.tokens.length .blockSequenceStart =
      (b.open_ n .blockSequenceStart).scan ⟨'-' :: r, o, l, n⟩ true :=
    openBlock_scan n .blockSequenceStart
  rw [step, readBlockEntry]
  simp only [show (b.scan ⟨'-' :: r, o, l, n⟩ true).count = b.tokens.length from rfl,
    show (b.scan ⟨'-' :: r, o, l, n⟩ true).at_.column = n from rfl, opened]
  simp only [Outline.scan, dropKey, inFlow, bind, Except.bind]
  rfl

/-- What a key is, which has at least one character. -/
theorem isKey_cons : isKey (c :: t) = true ↔ (opensPlain c t = true ∧
    continuesPlain false (c :: t) = true ∧ (c :: t).all isAllowed = true) ∧
    (∀ d ∈ c :: t, isSpaceOrTab d = false) ∧ c ≠ '\ufeff' ∧ byteCount (c :: t) ≤ 1024 := by
  simp only [isKey, Bool.and_eq_true, isPlain_cons, List.all_eq_true]
  simp [and_assoc]

/-- A word is no mark of a document where a colon follows. -/
theorem atDocumentMark_word {w : List Char}
    (hw : ∀ d ∈ w, isSpaceOrTab d = false ∧ isBreak d = false) :
    Cursor.atDocumentMark ⟨w ++ ':' :: r, o, l, n⟩ = false := by
  have visible {w : List Char} (hw : ∀ d ∈ w, isSpaceOrTab d = false ∧ isBreak d = false) :
      atBlank (w ++ ':' :: r) = false := by
    cases w with
    | nil => rfl
    | cons d w => exact atBlank_cons_eq_false.2 (hw d (.head _))
  rw [Cursor.atDocumentMark]
  rcases w with _ | ⟨x, _ | ⟨y, _ | ⟨z, w⟩⟩⟩
  · simp
  · simp
  · simp
  · have further := visible fun d hd => hw d (.tail _ (.tail _ (.tail _ hd)))
    dsimp only [List.cons_append]
    split
    · next h =>
      simp only [List.cons.injEq] at h
      rw [← h.2.2.2, further, Bool.and_false]
    · next h =>
      simp only [List.cons.injEq] at h
      rw [← h.2.2.2, further, Bool.and_false]
    · rw [Bool.and_false]

/-- A key is read as a plain scalar that may be a key. -/
theorem readToken_word (hw : isKey (c :: t) = true) (hr : atBlank r = true) :
    (b.scan ⟨c :: t ++ ':' :: r, o, l, n⟩ true).readToken c (t ++ ':' :: r) =
      .ok (b.behindWord (c :: t) (':' :: r) o l n) := by
  obtain ⟨⟨opens, continues, -⟩, noBlank, -, -⟩ := isKey_cons.1 hw
  obtain ⟨visible, noMark⟩ := visible_of_opensPlain opens
  have mark : Cursor.atDocumentMark ⟨c :: t ++ ':' :: r, o, l, n⟩ = false :=
    atDocumentMark_word fun d hd => ⟨noBlank d hd, noBreak_of_continuesPlain continues d hd⟩
  have stop : plainWord false ([] ++ ':' :: r) = .ok ([], [] ++ ':' :: r) := by
    simp [plainWord, hr, isSpaceOrTab, isBreak]
  have taken : plainWord false (c :: t ++ ':' :: r) = .ok (c :: t, ':' :: r) :=
    plainWord_append (t := []) (c :: t) noBlank (by rwa [List.append_nil]) stop
  have saved : (b.scan ⟨c :: t ++ ':' :: r, o, l, n⟩ true).saveKey =
      .ok ⟨⟨c :: t ++ ':' :: r, o, l, n⟩, b.tokens, b.tokens.length, b.indent, b.outer,
        [some ⟨b.tokens.length, b.indent == n, o, l, n⟩], true⟩ := rfl
  have read : readPlain false (b.indent + 1) (c :: t ++ ':' :: r).length [] Gap.empty
      ⟨c :: t ++ ':' :: r, o, l, n⟩ =
        .ok (c :: t, ⟨':' :: r, o + byteCount (c :: t), l, n + (c :: t).length⟩, false) := by
    rw [List.cons_append, List.length_cons, ← List.cons_append,
      readPlain_word mark (List.cons_ne_nil c t) (by simpa using noMark) taken,
      if_pos (by simp [atBlank, isSpaceOrTab, isBreak]), Cursor.moveTo_append]
    simp [Gap.text, Gap.empty]
  rw [readToken_plain opens mark, readPlainScalar_eq_ok saved rfl read]
  rfl

/-- The colon behind a key. -/
theorem readToken_colon {w : List Char} (hw : w ≠ []) (hr : atBlank r = true) :
    (b.behindWord w (':' :: r) o l n).readToken ':' r =
      .ok ((b.key l n (String.ofList w)).scan ⟨r, o + byteCount w + 1, l, n + w.length + 1⟩
        false) := by
  have mark : Cursor.atDocumentMark ⟨':' :: r, o + byteCount w, l, n + w.length⟩ = false :=
    Cursor.atDocumentMark_of_column (Nat.add_pos_right n (List.length_pos_iff.2 hw))
  have one : b.tokens.length + 1 - b.tokens.length = 1 := Nat.add_sub_cancel_left ..
  have two : b.tokens.length + 1 + 1 - b.tokens.length = 2 := by omega
  have width : ':'.utf8Size = 1 := rfl
  rw [Outline.behindWord, readToken]
  simp only [mark, hr, readValue]
  by_cases h : b.indent < n
  · simp [insert, setKey, openBlock, emit, inFlow, Outline.key, Outline.open_, Outline.emit,
      Outline.scan, h, one, two, Cursor.advance_one, width, pure, Except.pure]
  · simp [insert, setKey, openBlock, emit, inFlow, Outline.key, Outline.open_, Outline.emit,
      Outline.scan, h, one, Cursor.advance_one, width, pure, Except.pure]

/-- A plain scalar at the end of its line. -/
theorem readToken_plainLine {z : List Char} (ht : isPlain (c :: t) = true)
    (hz : ∀ c ∈ z, c = ' ' ∨ c = '\n') (hr : atVisible r = true)
    (left : ∀ o l, ((Cursor.passed z ⟨z ++ r, o, l, 0⟩).column : Int) ≤ b.indent)
    (right : b.indent < n) (hn : 0 < n) :
    (b.scan ⟨c :: t ++ '\n' :: (z ++ r), o, l, n⟩ false).readToken c (t ++ '\n' :: (z ++ r)) =
      .ok ((b.emit [.scalar (String.ofList (c :: t)) .plain l]).scan
        (Cursor.passed z ⟨z ++ r, o + byteCount (c :: t) + 1, l + 1, 0⟩) true) := by
  obtain ⟨opens, continues, -⟩ := isPlain_cons.1 ht
  obtain ⟨visible, noMark⟩ := visible_of_opensPlain opens
  have saved : (b.scan ⟨c :: t ++ '\n' :: (z ++ r), o, l, n⟩ false).saveKey =
      .ok (b.scan ⟨c :: t ++ '\n' :: (z ++ r), o, l, n⟩ false) := rfl
  have read : readPlain false (b.indent + 1) (c :: t ++ '\n' :: (z ++ r)).length [] Gap.empty
      ⟨c :: t ++ '\n' :: (z ++ r), o, l, n⟩ =
        .ok (((c :: t).reverse ++ Gap.empty.text.reverse ++ []).reverse,
          Cursor.passed z ⟨z ++ r, o + byteCount (c :: t) + 1, l + 1, 0⟩, true) :=
    readPlain_line continues visible (by simpa using noMark) hz hr
      (fun o l => Int.lt_add_one_of_le (left o l)) right hn (by simp)
  rw [readToken_plain opens (Cursor.atDocumentMark_of_column hn),
    readPlainScalar_eq_ok saved rfl read]
  simp [Gap.text, Gap.empty, emit, Outline.emit, Outline.scan]

theorem quotedWord_append {fuel : Nat} (ht : isSimple t = true)
    (hf : t.length ≤ fuel) : quotedWord '"' fuel (t ++ '"' :: r) = .ok (t, '"' :: r) := by
  induction t generalizing fuel with
  | nil =>
    cases fuel with
    | zero => rfl
    | succ fuel => rfl
  | cons c t ih =>
    obtain ⟨fuel, rfl⟩ : ∃ k, fuel = k + 1 := ⟨fuel - 1, by simp at hf; omega⟩
    simp only [isSimple, List.all_cons, Bool.and_eq_true, Bool.not_eq_true', bne_iff_ne] at ht
    obtain ⟨⟨⟨⟨⟨-, noBlank⟩, noBreak⟩, noMark⟩, noEscape⟩, rest⟩ := ht
    have tail : quotedWord '"' fuel (t ++ '"' :: r) = .ok (t, '"' :: r) :=
      ih (by simpa [isSimple] using rest) (by simpa using hf)
    simp [quotedWord, noBlank, noBreak, noMark, noEscape, tail, pure, Except.pure, bind,
      Except.bind]

/-- A quoted scalar without blanks and escapes. -/
theorem readToken_quoted (ht : isSimple t = true) (hn : 0 < n) :
    (b.scan ⟨'"' :: (t ++ '"' :: r), o, l, n⟩ false).readToken '"' (t ++ '"' :: r) =
      .ok ((b.emit [.scalar (String.ofList t) .doubleQuoted l]).scan
        ⟨r, o + 1 + byteCount t + 1, l, n + 1 + t.length + 1⟩ false) := by
  have mark : Cursor.atDocumentMark ⟨'"' :: (t ++ '"' :: r), o, l, n⟩ = false :=
    Cursor.atDocumentMark_of_column hn
  have inner : Cursor.atDocumentMark ⟨t ++ '"' :: r, o + 1, l, n + 1⟩ = false :=
    Cursor.atDocumentMark_of_column (Nat.succ_pos n)
  have width : '"'.utf8Size = 1 := rfl
  have read (fuel : Nat) : readQuoted '"' (fuel + 1) [] ⟨t ++ '"' :: r, o + 1, l, n + 1⟩ =
      .ok (t, ⟨r, o + 1 + byteCount t + 1, l, n + 1 + t.length + 1⟩) := by
    have word : quotedWord '"' (t ++ '"' :: r).length (t ++ '"' :: r) = .ok (t, '"' :: r) :=
      quotedWord_append ht (by simp)
    rw [readQuoted]
    simp only [inner, word, bind, Except.bind, Cursor.moveTo_append, Cursor.advance_one]
    simp [width, pure, Except.pure]
  have step : (b.scan ⟨'"' :: (t ++ '"' :: r), o, l, n⟩ false).readToken '"' (t ++ '"' :: r) =
      (b.scan ⟨'"' :: (t ++ '"' :: r), o, l, n⟩ false).readQuotedScalar '"' .doubleQuoted := by
    rw [readToken]
    simp [Outline.scan, mark]
  have saved : (b.scan ⟨'"' :: (t ++ '"' :: r), o, l, n⟩ false).saveKey =
      .ok (b.scan ⟨'"' :: (t ++ '"' :: r), o, l, n⟩ false) := rfl
  rw [step, readQuotedScalar, saved]
  simp only [bind, Except.bind, Outline.scan, Cursor.advance_one, width, List.length_cons, read]
  rfl

end Line

/-! ## A line -/

section Lines

variable {b : Outline} {r : List Char} {o l n : Nat}

/-- Whether one scan goes on as another one does after so many tokens. -/
def Leads (n : Nat) (s s' : Scan) : Prop := ∀ k, readAll (k + 1 + n) s = readAll (k + 1) s'

theorem Leads.trans {m n : Nat} {s s' s'' : Scan} (h : Leads m s s') (h' : Leads n s' s'') :
    Leads (m + n) s s'' := by
  intro k
  rw [Nat.add_comm m, ← Nat.add_assoc, Nat.add_right_comm k 1 n, h, Nat.add_right_comm k n 1, h']

theorem Leads.of_settled {s s' : Scan} (h : s.settled = s'.settled) : Leads 0 s s' :=
  fun _ => readAll_congr h

/-- One token. -/
theorem Leads.one {s s' : Scan} {at_ : Cursor} {c : Char} {rest : List Char} {keyAllowed : Bool}
    (settled : s.settled = b.scan at_ keyAllowed) (here : at_.rest = c :: rest)
    (read : ((b.close at_.column).scan at_ keyAllowed).readToken c rest = .ok s') :
    Leads 1 s s' := by
  intro k
  rw [readAll_of_settled settled here, read]
  rfl

variable {w : List Char}

/-- One token where no blank is skipped and no block ends. -/
theorem Leads.next {s s' : Scan} {c : Char} {rest : List Char} (still : s.settled = s)
    (fresh : s.expireKeys = .ok s) (inside : s.closeTo s.at_.column = s)
    (here : s.at_.rest = c :: rest) (read : s.readToken c rest = .ok s') : Leads 1 s s' := by
  intro k
  rw [readAll, ← settled, still, fresh]
  simp only [bind, Except.bind]
  rw [inside]
  simp only [here, read]

theorem closeTo_of_le {s : Scan} {column : Int} (h : s.indent ≤ column) : s.closeTo column = s := by
  rw [closeTo, closeBlocks, if_neg]
  simp [Int.not_lt.2 h]

theorem close_of_le {column : Int} (h : b.indent ≤ column) : b.close column = b := by
  obtain ⟨tokens, indent, outer⟩ := b
  rw [Outline.close]
  cases outer with
  | nil => exact if_neg (Int.not_lt.2 h)
  | cons next outer => exact if_neg (Int.not_lt.2 h)

theorem indent_closeFrom_le {column : Int} (hc : -1 ≤ column) (tokens : List Token) (indent : Int)
    (outer : List Int) : (Outline.closeFrom column tokens indent outer).indent ≤ column := by
  induction outer generalizing tokens indent with
  | nil =>
    rw [Outline.closeFrom]
    split
    · exact hc
    · next h => exact Int.not_lt.1 h
  | cons next outer ih =>
    rw [Outline.closeFrom]
    split
    · exact ih _ _
    · next h => exact Int.not_lt.1 h

theorem indent_close_le (b : Outline) (column : Nat) : (b.close column).indent ≤ column :=
  indent_closeFrom_le (by omega) b.tokens b.indent b.outer

/-- The hyphen of an item and the space behind it. -/
theorem leads_item : Leads 1 (b.scan ⟨'-' :: ' ' :: r, o, l, n⟩ true)
    (((b.close n).item n).scan ⟨r, o + 1 + 1, l, n + 1 + 1⟩ true) := by
  have settled : (b.scan ⟨'-' :: ' ' :: r, o, l, n⟩ true).settled =
      b.scan ⟨'-' :: ' ' :: r, o, l, n⟩ true :=
    settled_of_atVisible rfl (by simp [Outline.scan]) (.inl (by simp [Outline.scan]))
  exact (Leads.one settled rfl (readToken_hyphen rfl)).trans (.of_settled settled_space)

theorem expireKeys_of_near {s : Scan} {key : PendingKey} (hk : s.keys = [some key])
    (sameLine : ¬key.line < s.at_.line) (near : ¬key.offset + 1024 < s.at_.offset) :
    s.expireKeys = .ok s := by
  have kept :
      (decide (key.line < s.at_.line) || decide (key.offset + 1024 < s.at_.offset)) = false := by
    simp [sameLine, near]
  obtain ⟨at_, tokens, count, indent, outer, keys, keyAllowed⟩ := s
  obtain rfl : keys = [some key] := hk
  simp only [expireKeys, List.mapM_cons, List.mapM_nil, kept]
  rfl

/-- The colon behind a word, which is near enough to make it a key. -/
theorem leads_colon (hw : w ≠ []) (near : byteCount w ≤ 1024) (hr : atBlank r = true)
    (inside : b.indent ≤ n) : Leads 1 (b.behindWord w (':' :: r) o l n)
      ((b.key l n (String.ofList w)).scan ⟨r, o + byteCount w + 1, l, n + w.length + 1⟩ false) := by
  refine .next (settled_of_atVisible rfl ?_ (.inl ?_)) ?_ (closeTo_of_le ?_) rfl
    (readToken_colon hw hr)
  · simp [Outline.behindWord]
  · simp [Outline.behindWord]
  · exact expireKeys_of_near rfl (Nat.lt_irrefl l) (by simp only [Outline.behindWord]; omega)
  · simp only [Outline.behindWord]
    push_cast
    omega

/-- A key with its colon. -/
theorem leads_key (hw : isKey w = true) (hr : atBlank r = true) :
    Leads 2 (b.scan ⟨w ++ ':' :: r, o, l, n⟩ true)
      (((b.close n).key l n (String.ofList w)).scan ⟨r, o + byteCount w + 1, l, n + w.length + 1⟩
        false) := by
  obtain ⟨c, t, rfl⟩ : ∃ c t, w = c :: t := by
    cases w with
    | nil => cases hw
    | cons c t => exact ⟨c, t, rfl⟩
  obtain ⟨⟨opens, -, -⟩, -, noOrder, near⟩ := isKey_cons.1 hw
  obtain ⟨visible, noMark⟩ := visible_of_opensPlain opens
  have settled : (b.scan ⟨c :: t ++ ':' :: r, o, l, n⟩ true).settled =
      b.scan ⟨c :: t ++ ':' :: r, o, l, n⟩ true := by
    refine settled_of_atVisible ?_ ?_ (.inl ?_)
    · exact atVisible_cons.2 (atBlank_cons_eq_false.1 visible)
    · simpa [Outline.scan] using noMark
    · simpa [Outline.scan] using noOrder
  exact (Leads.one settled rfl (readToken_word hw hr)).trans
    (leads_colon (List.cons_ne_nil c t) near hr (indent_close_le b n))

section Content

variable {t z : List Char}

/-- A plain scalar behind a key, up to the start of the next line. -/
theorem leads_plain (ht : isPlain t = true) (hz : ∀ c ∈ z, c = ' ' ∨ c = '\n')
    (hr : atVisible r = true)
    (left : ∀ o l, ((Cursor.passed z ⟨z ++ r, o, l, 0⟩).column : Int) ≤ b.indent)
    (right : b.indent ≤ n) :
    ∃ o', Leads 1 (b.scan ⟨' ' :: t ++ '\n' :: (z ++ r), o, l, n⟩ false)
      ((b.emit [.scalar (String.ofList t) .plain l]).scan ⟨z ++ r, o', l + 1, 0⟩ true) := by
  obtain ⟨c, t, rfl⟩ : ∃ c u, t = c :: u := by
    cases t with
    | nil => cases ht
    | cons c t => exact ⟨c, t, rfl⟩
  obtain ⟨visible, noMark⟩ := visible_of_opensPlain (isPlain_cons.1 ht).1
  have settled : (b.scan ⟨' ' :: (c :: t) ++ '\n' :: (z ++ r), o, l, n⟩ false).settled =
      b.scan ⟨c :: t ++ '\n' :: (z ++ r), o + 1, l, n + 1⟩ false := by
    refine settled_space.trans (settled_of_atVisible ?_ ?_ (.inr (Nat.succ_ne_zero n)))
    · exact atVisible_cons.2 (atBlank_cons_eq_false.1 visible)
    · simpa [Outline.scan] using noMark
  have read := readToken_plainLine (o := o + 1) (l := l) (n := n + 1) ht hz hr left
    (by push_cast; omega) (Nat.succ_pos n)
  have inside : b.close (n + 1 : Nat) = b := close_of_le (by push_cast; omega)
  have token : Leads 1 (b.scan ⟨' ' :: (c :: t) ++ '\n' :: (z ++ r), o, l, n⟩ false)
      ((b.emit [.scalar (String.ofList (c :: t)) .plain l]).scan
        (Cursor.passed z ⟨z ++ r, o + 1 + byteCount (c :: t) + 1, l + 1, 0⟩) true) := by
    refine .one settled rfl ?_
    rw [inside]
    exact read
  exact ⟨_, token.trans (.of_settled (settled_passed hz))⟩

/-- A quoted scalar behind a key, up to the start of the next line. -/
theorem leads_quoted (ht : isSimple t = true) (right : b.indent ≤ n) :
    ∃ o', Leads 1 (b.scan ⟨' ' :: '"' :: (t ++ ['"']) ++ '\n' :: r, o, l, n⟩ false)
      ((b.emit [.scalar (String.ofList t) .doubleQuoted l]).scan ⟨r, o', l + 1, 0⟩ true) := by
  have whole : ' ' :: '"' :: (t ++ ['"']) ++ '\n' :: r = ' ' :: '"' :: (t ++ '"' :: '\n' :: r) := by
    simp
  have settled : (b.scan ⟨' ' :: '"' :: (t ++ '"' :: '\n' :: r), o, l, n⟩ false).settled =
      b.scan ⟨'"' :: (t ++ '"' :: '\n' :: r), o + 1, l, n + 1⟩ false :=
    settled_space.trans
      (settled_of_atVisible rfl (by simp [Outline.scan]) (.inr (Nat.succ_ne_zero n)))
  have read := readToken_quoted (b := b) (r := '\n' :: r) (o := o + 1) (l := l) ht (Nat.succ_pos n)
  have inside : b.close (n + 1 : Nat) = b := close_of_le (by push_cast; omega)
  have token : Leads 1 (b.scan ⟨' ' :: '"' :: (t ++ '"' :: '\n' :: r), o, l, n⟩ false)
      ((b.emit [.scalar (String.ofList t) .doubleQuoted l]).scan
        ⟨'\n' :: r, o + 1 + 1 + byteCount t + 1, l, n + 1 + 1 + t.length + 1⟩ false) := by
    refine .one settled rfl ?_
    rw [inside]
    exact read
  rw [whole]
  exact ⟨_, token.trans (.of_settled settled_lineFeed)⟩

/-- What stands behind a key, up to the start of the next line. -/
theorem leads_content {content : Content} (hc : content.isFormed = true)
    (hz : ∀ c ∈ z, c = ' ' ∨ c = '\n') (hr : atVisible r = true)
    (left : content.isNothing = false →
      ∀ o l, ((Cursor.passed z ⟨z ++ r, o, l, 0⟩).column : Int) ≤ b.indent) (right : b.indent ≤ n) :
    ∃ m o', m ≤ 1 ∧ Leads m (b.scan ⟨content.print ++ '\n' :: (z ++ r), o, l, n⟩ false)
      ((content.outline l b).scan ⟨z ++ r, o', l + 1, 0⟩ true) := by
  cases content with
  | nothing => exact ⟨0, o + 1, Nat.zero_le 1, .of_settled settled_lineFeed⟩
  | plain text =>
    obtain ⟨o', leads⟩ := leads_plain (o := o) (l := l) hc hz hr (left rfl) right
    rw [String.ofList_toList] at leads
    exact ⟨1, o', Nat.le_refl 1, leads⟩
  | quoted text =>
    obtain ⟨o', leads⟩ := leads_quoted (r := z ++ r) (o := o) (l := l) hc right
    rw [String.ofList_toList] at leads
    exact ⟨1, o', Nat.le_refl 1, leads⟩

end Content

theorem indent_open_ (inside : b.indent ≤ n) (token : Token) : (b.open_ n token).indent = n := by
  rw [Outline.open_]
  split
  · rfl
  · next h => exact Int.le_antisymm inside (Int.not_lt.1 h)

theorem indent_key {key : String} (inside : b.indent ≤ n) : (b.key l n key).indent = n :=
  indent_open_ inside .blockMappingStart

theorem indent_item (inside : b.indent ≤ n) : (b.item n).indent = n :=
  indent_open_ inside .blockSequenceStart

theorem passed_spaces (m : Nat) :
    Cursor.passed (List.replicate m ' ') ⟨List.replicate m ' ' ++ r, o, l, n⟩ =
      ⟨r, o + m, l, n + m⟩ := by
  induction m generalizing o n with
  | zero => rfl
  | succ m ih =>
    rw [List.replicate_succ, List.cons_append, Cursor.passed, if_neg (by decide),
      Cursor.advance_one]
    have step := ih (o := o + ' '.utf8Size) (n := n + 1)
    have width : ' '.utf8Size = 1 := rfl
    rw [step, width]
    simp only [Nat.add_assoc, Nat.add_comm 1]

theorem exists_cons_of_isKey (hw : isKey w = true) :
    ∃ c t, w = c :: t ∧ isSpaceOrTab c = false ∧ isBreak c = false := by
  cases w with
  | nil => cases hw
  | cons c t =>
    have visible := (visible_of_opensPlain (isKey_cons.1 hw).1.1).1
    exact ⟨c, t, rfl, atBlank_cons_eq_false.1 visible⟩

/-- Lines start with empty lines and spaces, up to a text that stands in their first column. -/
theorem exists_printLines {lines : List Line} (h : AreFormed lines) :
    ∃ z r, printLines lines = z ++ r ∧ (∀ c ∈ z, c = ' ' ∨ c = '\n') ∧ atVisible r = true ∧
      ∀ o l, (Cursor.passed z ⟨z ++ r, o, l, 0⟩).column = firstColumn lines := by
  induction lines with
  | nil => exact ⟨[], [], rfl, nofun, rfl, fun _ _ => rfl⟩
  | cons x lines ih =>
    cases x with
    | empty =>
      obtain ⟨z, r, whole, hz, hr, column⟩ := ih h.tail
      refine ⟨'\n' :: z, r, by simp [printLines, Line.print, whole], ?_, hr, fun o l => ?_⟩
      · rintro c (_ | ⟨_, hc⟩)
        · exact .inr rfl
        · exact hz c hc
      · exact column (o + 1) (l + 1)
    | comment text => exact ⟨[], _, rfl, nofun, rfl, fun _ _ => rfl⟩
    | entry column item key content =>
      have hk := (Bool.and_eq_true_iff.1 (h.each _ (.head _))).1
      obtain ⟨c, t, ht, visible⟩ := exists_cons_of_isKey hk
      refine ⟨List.replicate column ' ', _, List.append_assoc .., fun c hc => ?_, ?_, fun o l => ?_⟩
      · exact .inl (List.eq_of_mem_replicate hc)
      · cases item with
        | true => rfl
        | false =>
          rw [ht]
          exact atVisible_cons.2 visible
      · rw [passed_spaces, Nat.zero_add, firstColumn]

/-- The hyphen of an item, if there is one, and the key behind it. -/
theorem leads_entry {key : String} (item : Bool) (hk : isKey key.toList = true)
    (hr : atBlank r = true) :
    Leads (if item then 3 else 2)
      (b.scan ⟨(if item then ['-', ' '] else []) ++ (key.toList ++ ':' :: r), o, l, n⟩ true)
      (((if item then (b.close n).item n else b.close n).key l (Line.keyColumn n item) key).scan
        ⟨r, o + (if item then 2 else 0) + byteCount key.toList + 1, l,
          Line.keyColumn n item + key.toList.length + 1⟩ false) := by
  cases item with
  | false =>
    have leads := leads_key (b := b) (o := o) (l := l) (n := n) hk hr
    rw [String.ofList_toList] at leads
    exact leads
  | true =>
    have inside : ((b.close n).item n).close ((n + 2 : Nat) : Int) = (b.close n).item n :=
      close_of_le (by rw [indent_item (indent_close_le b n)]; omega)
    have leads := leads_key (b := (b.close n).item n) (o := o + 2) (l := l) (n := n + 2) hk hr
    rw [String.ofList_toList, inside] at leads
    exact leads_item.trans leads

/-- The block of an entry is the one of its key. -/
theorem indent_entry (b : Outline) (l n : Nat) (item : Bool) (key : String) :
    ((if item then (b.close n).item n else b.close n).key l (Line.keyColumn n item) key).indent =
      Line.keyColumn n item := by
  refine indent_key ?_
  cases item with
  | false => exact indent_close_le b n
  | true =>
    show ((b.close n).item n).indent ≤ ((n + 2 : Nat) : Int)
    rw [indent_item (indent_close_le b n)]
    omega

theorem atBlank_print (content : Content) (rest : List Char) :
    atBlank (content.print ++ '\n' :: rest) = true := by
  cases content with
  | nothing => rfl
  | plain text => rfl
  | quoted text => rfl

/-- A line is scanned as its outline says, whatever follows it. -/
theorem leads_line {x : Line} {lines : List Line} (h : AreFormed (x :: lines)) :
    ∃ m o', m ≤ x.print.length + 1 ∧
      Leads m (b.scan ⟨printLines (x :: lines), o, l, 0⟩ true)
        ((x.outline l b).scan ⟨printLines lines, o', l + 1, 0⟩ true) := by
  cases x with
  | empty => exact ⟨0, o + 1, Nat.zero_le _, .of_settled settled_lineFeed⟩
  | comment text =>
    have formed := h.each _ (.head _)
    rw [Line.isFormed, List.all_eq_true] at formed
    refine ⟨0, _, Nat.zero_le _, .of_settled (settled_comment fun c hc => ?_)⟩
    exact Bool.not_eq_true' _ ▸ (Bool.and_eq_true_iff.1 (formed c hc)).2
  | entry column item key content =>
    obtain ⟨hk, hc⟩ := Bool.and_eq_true_iff.1 (h.each _ (.head _))
    obtain ⟨z, r, whole, hz, hr, first⟩ := exists_printLines h.tail
    have split : printLines (.entry column item key content :: lines) = List.replicate column ' ' ++
        ((if item then ['-', ' '] else []) ++
          (key.toList ++ ':' :: (content.print ++ '\n' :: printLines lines))) := by
      simp [printLines, Line.print]
    have spaces :
        Leads 0 (b.scan ⟨printLines (.entry column item key content :: lines), o, l, 0⟩ true)
          (b.scan ⟨(if item then ['-', ' '] else []) ++
            (key.toList ++ ':' :: (content.print ++ '\n' :: printLines lines)),
              o + column, l, column⟩ true) := by
      refine .of_settled ?_
      rw [split, settled_spaces, Nat.zero_add]
    have entry := leads_entry (b := b) (o := o + column) (l := l) (n := column) item hk
      (atBlank_print content (printLines lines))
    have indent := indent_entry b l column item key
    rw [whole] at spaces entry ⊢
    obtain ⟨m, o', hm, behind⟩ := leads_content (l := l)
      (b := (if item then (b.close column).item column else b.close column).key l
        (Line.keyColumn column item) key)
      (o := o + column + (if item then 2 else 0) + byteCount key.toList + 1)
      (n := Line.keyColumn column item + key.toList.length + 1) hc hz hr
      (fun some o l => by rw [first, indent]; exact_mod_cast h.firstColumn_le some)
      (by rw [indent]; omega)
    refine ⟨_, o', ?_, spaces.trans (entry.trans behind)⟩
    obtain ⟨c, t, ht, -⟩ := exists_cons_of_isKey hk
    simp only [Line.print, List.length_append, List.length_replicate, List.length_cons, ht]
    cases item with
    | false =>
      simp only [Bool.false_eq_true, if_false, List.length_nil]
      omega
    | true =>
      simp only [if_true, List.length_cons]
      omega

/-- The induction over the lines: each line but the last one leads to the start of the next. -/
theorem readAll_printLines {lines : List Line} {k : Nat} (h : AreFormed lines)
    (hk : (printLines lines).length < k) : readAll k (b.scan ⟨printLines lines, o, l, 0⟩ true) =
      .ok (((outlineLines l lines b).close 0).close (-1)).tokens.reverse := by
  induction lines generalizing b o l k with
  | nil =>
    obtain ⟨k, rfl⟩ : ∃ j, k = j + 1 := ⟨k - 1, by omega⟩
    have settled : (b.scan ⟨[], o, l, 0⟩ true).settled = b.scan ⟨[], o, l, 0⟩ true :=
      settled_of_atVisible rfl (by simp [Outline.scan]) (.inl (by simp [Outline.scan]))
    exact readAll_of_settled_nil settled rfl
  | cons x lines ih =>
    obtain ⟨m, o', hm, leads⟩ := leads_line (b := b) (o := o) (l := l) h
    have long : (printLines (x :: lines)).length =
        x.print.length + 1 + (printLines lines).length := by
      simp only [printLines, List.length_append, List.length_cons]
      omega
    obtain ⟨j, rfl⟩ : ∃ j, k = j + 1 + m := ⟨k - 1 - m, by omega⟩
    rw [leads j, ih h.tail (by omega), outlineLines]

end Lines

end Scan

/-- **The tokens of a document in lines** are those of its lines, one after the other, and the ends
of the blocks that are open behind the last one. -/
theorem tokens_print {lines : List Line} (h : AreFormed lines) :
    tokens (printLines lines) =
      .ok (((outlineLines 0 lines .start).close 0).close (-1)).tokens.reverse := by
  have read := Scan.readAll_printLines (b := .start) (o := 0) (l := 0) h (Nat.lt_succ_self _)
  rw [tokens, if_pos (List.all_eq_true.2 (isAllowed_printLines h))]
  exact read

end FunctionApp.Yaml
