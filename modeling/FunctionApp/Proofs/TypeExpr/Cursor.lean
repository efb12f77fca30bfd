import FunctionApp.Proofs.TypeExpr.ByteReader

/-!
# Bytes and tokens

A cursor of the byte reader stands before the tokens that the scanner finds in the rest of the text
(`Stands`). It moves over ASCII characters alone, so that it stays on boundaries between characters
(`Cursor.At`), and a look behind blanks shows which token is the next one (`Seen`).
-/

namespace FunctionApp.TypeExpr

open Grammar Text

/-- Whether the positions of a step are on boundaries between characters, a union inside of another
one starts behind the start of that one, and what is cut out is a text. -/
def Event.Sound (text : String) : Event → Prop
  | .reach pos => String.Pos.Raw.IsValid text ⟨pos⟩
  | .start outer pos => String.Pos.Raw.IsValid text ⟨pos⟩ ∧ ∀ o ∈ outer, o < pos
  | .cut left right => String.Pos.Raw.IsValid text ⟨left⟩ ∧ String.Pos.Raw.IsValid text ⟨right⟩ ∧
      (slice? text left right).isSome

namespace Cursor

variable {text : String} {s : Cursor} {c : Char} {rest : List Char} {p : Char → Bool}

/-- A cursor before a rest of a text, behind sound steps. -/
structure At (s : Cursor) (text : String) (rest : List Char) : Prop where
  before : Before text s.pos rest
  sound : ∀ e ∈ s.events, e.Sound text

theorem pos_next (s : Cursor) : s.next.pos = s.pos + 1 := rfl

theorem At.note {event : Event} (h : s.At text rest) (he : event.Sound text) :
    (s.note event).At text rest :=
  ⟨h.before, List.forall_mem_cons.2 ⟨he, h.sound⟩⟩

theorem At.next (h : s.At text (c :: rest)) (hc : c.toNat ≤ 127) : s.next.At text rest := by
  have before : Before text (s.pos + 1) rest := by
    rw [← utf8Size_of_ascii hc]
    exact h.before.next
  have sound : (Event.reach (s.pos + 1)).Sound text := before.isValid
  exact ⟨before, List.forall_mem_cons.2 ⟨sound, h.sound⟩⟩

theorem At.passWhile (hp : OfAscii p) (h : s.At text rest) :
    (s.passWhile text p).At text (rest.dropWhile p) ∧
      (s.passWhile text p).pos = s.pos + byteLength (rest.takeWhile p) := by
  induction rest generalizing s with
  | nil =>
    rw [Cursor.passWhile.eq_def]
    split
    · next hb =>
      rw [h.before.byteAt?_nil] at hb
      cases hb
    · exact ⟨h, rfl⟩
  | cons c rest ih =>
    rw [Cursor.passWhile.eq_def]
    split
    · next hb =>
      rw [h.before.byteAt?_cons] at hb
      cases hb
      rw [hp.firstByte, List.takeWhile_cons, List.dropWhile_cons]
      split
      · next hc =>
        obtain ⟨there, pos⟩ := ih (h.next (hp c hc))
        refine ⟨there, ?_⟩
        rw [pos]
        show s.pos + 1 + _ = s.pos + (c.utf8Size + _)
        rw [utf8Size_of_ascii (hp c hc), Nat.add_assoc]
        rfl
      · exact ⟨h, rfl⟩
    · next hb =>
      rw [h.before.byteAt?_cons] at hb
      cases hb

end Cursor

theorem ofAscii_isAsciiBlank : OfAscii isAsciiBlank := by
  intro c h
  simp only [isAsciiBlank, Bool.or_eq_true, beq_iff_eq] at h
  rcases h with (((rfl | rfl) | rfl) | rfl) | rfl <;> decide

theorem ofAscii_continuesName : OfAscii continuesName := by
  intro c h
  have upTo {d : Char} (hd : c ≤ d) (ascii : d.toNat ≤ 127) : c.toNat ≤ 127 :=
    Nat.le_trans (UInt32.le_iff_toNat_le.1 hd) ascii
  simp only [continuesName, isLetter, isDigit, Bool.or_eq_true, Bool.and_eq_true,
    decide_eq_true_eq, beq_iff_eq] at h
  rcases h with (((⟨-, h⟩ | ⟨-, h⟩) | ⟨-, h⟩) | rfl) | rfl
  · exact upTo h (by decide)
  · exact upTo h (by decide)
  · exact upTo h (by decide)
  · decide
  · decide

theorem continuesName_of_startsName {c : Char} (h : startsName c = true) :
    continuesName c = true := by
  simp only [startsName, Bool.or_eq_true] at h
  simp only [continuesName, Bool.or_eq_true]
  tauto

/-! ## Tokens -/

theorem ascii_of_mem_symbols {c : Char} {t : Token} (h : (c, t) ∈ symbols) : c.toNat ≤ 127 := by
  have : ∀ p ∈ symbols, p.1.toNat ≤ 127 := by decide
  exact this _ h

theorem symbols_injective {c d : Char} {t : Token} (hc : (c, t) ∈ symbols)
    (hd : (d, t) ∈ symbols) : c = d := by
  have : ∀ p ∈ symbols, ∀ q ∈ symbols, p.2 = q.2 → p.1 = q.1 := by decide
  exact this _ hc _ hd rfl

/-- Behind a cursor there are some tokens. -/
def Stands (text : String) (s : Cursor) (ts : List Lexeme) : Prop :=
  ∃ rest, s.At text rest ∧ scan s.pos rest = ts

/-- The byte that a reader sees at the first of the tokens that are left. -/
inductive Seen (text : String) (s : Cursor) : List Lexeme → Option Char → Prop where
  | done : s.At text [] → Seen text s [] none
  | name {c : Char} {rest : List Char} : s.At text (c :: rest) → startsName c = true →
      Seen text s (⟨.name (String.ofList (c :: rest.takeWhile continuesName)), s.pos⟩ ::
        scan (s.pos + byteLength (c :: rest.takeWhile continuesName))
          (rest.dropWhile continuesName)) (some c)
  | symbol {c : Char} {t : Token} {rest : List Char} : s.At text (c :: rest) → (c, t) ∈ symbols →
      Seen text s (⟨t, s.pos⟩ :: scan (s.pos + 1) rest) (some c)
  | other {c d : Char} {rest : List Char} : s.At text (c :: rest) → isAsciiBlank c = false →
      startsName c = false → symbol c = .other c → startsName d = false →
      (∀ t, (d, t) ∉ symbols) →
      Seen text s (⟨.other c, s.pos⟩ :: scan (s.pos + c.utf8Size) rest) (some d)

namespace Seen

variable {text : String} {s : Cursor} {ts : List Lexeme} {b : Option Char}

theorem stands (h : Seen text s ts b) :
    Stands text s ts ∧ s.pos = offsetOf text.utf8ByteSize ts := by
  cases h with
  | done h => exact ⟨⟨_, h, by rw [scan]⟩, h.before.eq_size⟩
  | name h hc => exact ⟨⟨_, h, scan_name hc⟩, rfl⟩
  | symbol h hc =>
    obtain ⟨hb, hn, rfl⟩ := of_mem_symbols hc
    refine ⟨⟨_, h, ?_⟩, rfl⟩
    rw [scan_symbol hb hn, utf8Size_of_ascii (ascii_of_mem_symbols hc)]
  | other h hb hn hc _ _ =>
    refine ⟨⟨_, h, ?_⟩, rfl⟩
    rw [scan_symbol hb hn, hc]

/-- A symbol that is seen is the first token, and behind it are the others. -/
theorem of_symbol {c : Char} {t : Token} (h : Seen text s ts (some c)) (hc : (c, t) ∈ symbols) :
    ∃ more, ts = ⟨t, s.pos⟩ :: more ∧ Stands text s.next more := by
  have known := of_mem_symbols hc
  cases h with
  | name h hn => rw [known.2.1] at hn; cases hn
  | symbol h hc' =>
    obtain rfl := (of_mem_symbols hc').2.2.symm.trans known.2.2
    exact ⟨_, rfl, _, h.next (ascii_of_mem_symbols hc), rfl⟩
  | other _ _ _ _ _ hno => exact absurd hc (hno t)

theorem of_name {c : Char} (h : Seen text s ts (some c)) (hc : startsName c = true) :
    ∃ rest, s.At text (c :: rest) ∧
      ts = ⟨.name (String.ofList (c :: rest.takeWhile continuesName)), s.pos⟩ ::
        scan (s.pos + byteLength (c :: rest.takeWhile continuesName))
          (rest.dropWhile continuesName) := by
  cases h with
  | name h _ => exact ⟨_, h, rfl⟩
  | symbol _ hs => exact absurd hc (by simp [(of_mem_symbols hs).2.1])
  | other _ _ _ _ hn _ => exact absurd hc (by simp [hn])

theorem eq_cons {c : Char} (h : Seen text s ts (some c)) (hc : startsName c = false) :
    ∃ l more, ts = l :: more ∧ ∀ name, l.token ≠ .name name := by
  cases h with
  | name _ hn => exact absurd hn (by simp [hc])
  | symbol _ hs =>
    refine ⟨_, _, rfl, ?_⟩
    rintro name rfl
    simp [symbols] at hs
  | other _ _ _ _ _ _ =>
    refine ⟨_, _, rfl, ?_⟩
    intro name same
    cases same

/-- A symbol that is not seen is not the first token. -/
theorem endsAt {c : Char} {t : Token} (h : Seen text s ts b) (hc : (c, t) ∈ symbols)
    (hb : b ≠ some c) : EndsAt [t] ts := by
  intro l hl he
  obtain rfl := List.mem_singleton.1 he
  cases h with
  | done h => cases hl
  | name h hn =>
    cases hl
    exact absurd hc (by simp [symbols])
  | symbol h hc' =>
    cases hl
    exact hb (congrArg some (symbols_injective hc' hc))
  | other h _ _ _ _ _ =>
    cases hl
    exact absurd hc (by simp [symbols])

end Seen

theorem startsName_firstByte (c : Char) : startsName (firstByte c) = startsName c :=
  OfAscii.firstByte (fun c h => ofAscii_continuesName c (continuesName_of_startsName h)) c

/-- What is no symbol has no symbol as its first byte. -/
theorem firstByte_not_mem_symbols {c : Char} (h : symbol c = .other c) (t : Token) :
    (firstByte c, t) ∉ symbols := by
  intro hc
  by_cases small : c.toNat ≤ 127
  · rw [firstByte_of_ascii small] at hc
    have known := (of_mem_symbols hc).2.2
    rw [h] at known
    subst known
    simp [symbols] at hc
  · have far := firstByte_of_not_ascii (Nat.not_le.1 small)
    exact Nat.not_le.2 far (ascii_of_mem_symbols hc)

theorem Cursor.At.seen {text : String} {s : Cursor} {rest : List Char} (h : s.At text rest)
    (hb : ∀ c ∈ rest.head?, isAsciiBlank c = false) :
    Seen text s (scan s.pos rest) (byteAt? text s.pos) := by
  cases rest with
  | nil =>
    rw [h.before.byteAt?_nil, scan]
    exact .done h
  | cons c rest =>
    have visible := hb c rfl
    rw [h.before.byteAt?_cons]
    cases hn : startsName c with
    | true =>
      rw [scan_name hn, firstByte_of_ascii (ofAscii_continuesName c (continuesName_of_startsName hn))]
      exact .name h hn
    | false =>
      rw [scan_symbol visible hn]
      rcases symbol_cases c with hc | hc
      · rw [firstByte_of_ascii (ascii_of_mem_symbols hc),
          utf8Size_of_ascii (ascii_of_mem_symbols hc)]
        exact .symbol h hc
      · rw [hc]
        exact .other h visible hn hc (by rw [startsName_firstByte, hn]) (firstByte_not_mem_symbols hc)

theorem scan_dropWhile_isAsciiBlank (offset : Nat) (cs : List Char) :
    scan (offset + byteLength (cs.takeWhile isAsciiBlank)) (cs.dropWhile isAsciiBlank) =
      scan offset cs := by
  induction cs generalizing offset with
  | nil => rfl
  | cons c cs ih =>
    rw [List.takeWhile_cons, List.dropWhile_cons]
    split
    · next hc =>
      rw [scan_blank hc, ← ih]
      show scan (offset + (c.utf8Size + _)) _ = _
      rw [← Nat.add_assoc]
      rfl
    · rfl

theorem peek_eq {text : String} {s : Cursor} {ts : List Lexeme} (h : Stands text s ts) :
    ∃ s' b, ByteReader.peek text s = (.ok b, s') ∧ s.pos ≤ s'.pos ∧ Seen text s' ts b := by
  obtain ⟨rest, h, rfl⟩ := h
  obtain ⟨there, pos⟩ := h.passWhile ofAscii_isAsciiBlank
  refine ⟨s.passWhile text isAsciiBlank, _, rfl, ?_, ?_⟩
  · rw [pos]
    exact Nat.le_add_right _ _
  · have seen := there.seen (head?_dropWhile rest)
    rw [pos, scan_dropWhile_isAsciiBlank, ← pos] at seen
    exact seen

end FunctionApp.TypeExpr
