import Mathlib.Data.List.Forall2
import FunctionApp.TypeExpr.Printer
import FunctionApp.TypeExpr.Token

/-!
# How tokens are written

A text is written as tokens with ASCII blanks anywhere between them (`Spells`). A name reaches as far
as its characters do, so that two names never touch. The scanner finds just these tokens
(`spells_iff`), and what starts no token is left as a token that no text spells.
-/

namespace FunctionApp.TypeExpr

/-- The characters that stand for themselves, with their tokens. -/
def symbols : List (Char × Token) :=
  [('(', .openParen), (')', .closeParen), ('[', .openBracket), (']', .closeBracket),
    ('?', .question), ('|', .bar), ('&', .ampersand), (',', .comma), ('<', .less), ('>', .greater)]

/-- The characters that may stand between tokens. -/
def blanks : List Char := [' ', '\t', '\n', '\x0c', '\r']

/-- A text written as tokens, with blanks between them. -/
inductive Spells : List Char → List Token → Prop where
  | nil : Spells [] []
  | blank {c : Char} {cs : List Char} {ts : List Token} :
      c ∈ blanks → Spells cs ts → Spells (c :: cs) ts
  | symbol {c : Char} {t : Token} {cs : List Char} {ts : List Token} :
      (c, t) ∈ symbols → Spells cs ts → Spells (c :: cs) (t :: ts)
  /-- A name ends where no character follows that could belong to it. -/
  | name {c : Char} {more cs : List Char} {ts : List Token} :
      startsName c = true → (∀ d ∈ more, continuesName d = true) →
      (∀ d ∈ cs.head?, continuesName d = false) → Spells cs ts →
      Spells (c :: more ++ cs) (.name (String.ofList (c :: more)) :: ts)

/-- A text that is a name as a whole. -/
def IsName (name : String) : Prop :=
  ∃ c more, name.toList = c :: more ∧ startsName c = true ∧ ∀ d ∈ more, continuesName d = true

theorem mem_blanks {c : Char} : c ∈ blanks ↔ Text.isAsciiBlank c = true := by
  simp [blanks, Text.isAsciiBlank, or_assoc]

/-- A symbol is neither a blank nor the start of a name. -/
theorem of_mem_symbols {c : Char} {t : Token} (h : (c, t) ∈ symbols) :
    Text.isAsciiBlank c = false ∧ startsName c = false ∧ symbol c = t := by
  simp only [symbols, List.mem_cons, Prod.mk.injEq, List.not_mem_nil, or_false] at h
  rcases h with ⟨rfl, rfl⟩ | ⟨rfl, rfl⟩ | ⟨rfl, rfl⟩ | ⟨rfl, rfl⟩ | ⟨rfl, rfl⟩ | ⟨rfl, rfl⟩ |
    ⟨rfl, rfl⟩ | ⟨rfl, rfl⟩ | ⟨rfl, rfl⟩ | ⟨rfl, rfl⟩ <;> decide

theorem symbol_cases (c : Char) : (c, symbol c) ∈ symbols ∨ symbol c = .other c := by
  unfold symbol
  split <;> simp [symbols]

theorem not_isAsciiBlank_of_startsName {c : Char} (h : startsName c = true) :
    Text.isAsciiBlank c = false := by
  rw [← Bool.not_eq_true]
  intro hb
  simp only [Text.isAsciiBlank, Bool.or_eq_true, beq_iff_eq] at hb
  rcases hb with (((rfl | rfl) | rfl) | rfl) | rfl <;> exact absurd h (by decide)

/-- No symbol can belong to the name before it. -/
theorem not_continuesName_of_mem_symbols {c : Char} {t : Token} (h : (c, t) ∈ symbols) :
    continuesName c = false := by
  have : ∀ p ∈ symbols, continuesName p.1 = false := by decide
  exact this _ h

theorem isName_of_all {name : String} {c : Char} {more : List Char} (h : name.toList = c :: more)
    (hc : startsName c = true) (hm : more.all continuesName = true) : IsName name :=
  ⟨c, more, h, hc, List.all_eq_true.1 hm⟩

theorem isName_word (b : Builtin) : IsName b.word := by
  cases b <;> exact isName_of_all rfl rfl rfl

theorem isName_of_spells {cs : List Char} {ts : List Token} (h : Spells cs ts) {name : String}
    (hn : .name name ∈ ts) : IsName name := by
  induction h with
  | nil => cases hn
  | blank _ _ ih => exact ih hn
  | symbol hc _ ih =>
    rcases List.mem_cons.1 hn with rfl | hn
    · simp [symbols] at hc
    · exact ih hn
  | @name c more _ _ hc hm _ _ ih =>
    rcases List.mem_cons.1 hn with e | hn
    · obtain rfl := Token.name.inj e
      exact ⟨c, more, String.toList_ofList, hc, hm⟩
    · exact ih hn

/-! ## Spelling text by text -/

theorem Spells.append {cs ds : List Char} {ts us : List Token} (h : Spells cs ts)
    (h' : Spells ds us) (hd : ∀ d ∈ ds.head?, continuesName d = false) :
    Spells (cs ++ ds) (ts ++ us) := by
  induction h with
  | nil => exact h'
  | blank hc _ ih => exact .blank hc ih
  | symbol hc _ ih => exact .symbol hc ih
  | @name c more rest _ hc hm hr _ ih =>
    rw [List.append_assoc]
    refine .name hc hm ?_ ih
    cases rest with
    | nil => exact hd
    | cons r rest => exact hr

theorem spells_name {name : String} (h : IsName name) : Spells name.toList [.name name] := by
  obtain ⟨c, more, hn, hc, hm⟩ := h
  have spelled := Spells.name hc hm (by simp) .nil
  rw [List.append_nil, ← hn, String.ofList_toList] at spelled
  exact spelled

/-- A symbol ends whatever name stands before it. -/
theorem Spells.append_symbol {cs ds : List Char} {ts us : List Token} {c : Char} {t : Token}
    (h : Spells cs ts) (hc : (c, t) ∈ symbols) (h' : Spells ds us) :
    Spells (cs ++ c :: ds) (ts ++ t :: us) := by
  refine h.append (.symbol hc h') fun d hd => ?_
  obtain rfl : c = d := Option.some.inj hd
  exact not_continuesName_of_mem_symbols hc

/-- A text that stands for a token between other texts. -/
structure Separates (sep : String) (t : Token) : Prop where
  spells : ∀ {cs ts}, Spells cs ts → Spells (sep.toList ++ cs) (t :: ts)
  ends : ∃ c more, sep.toList = c :: more ∧ continuesName c = false

theorem spells_space {cs : List Char} {ts : List Token} (h : Spells cs ts) :
    Spells (' ' :: cs) ts :=
  .blank (by decide) h

theorem separates_bar : Separates "|" .bar where
  spells {cs ts} h := by
    have spelled : Spells ('|' :: cs) (.bar :: ts) := .symbol (by decide) h
    exact spelled
  ends := ⟨'|', [], rfl, rfl⟩

theorem separates_ampersand : Separates " & " .ampersand where
  spells {cs ts} h := by
    have spelled : Spells ('&' :: ' ' :: cs) (.ampersand :: ts) :=
      .symbol (by decide) (spells_space h)
    exact spells_space spelled
  ends := ⟨' ', ['&', ' '], rfl, rfl⟩

theorem separates_comma : Separates ", " .comma where
  spells {cs ts} h := by
    have spelled : Spells (',' :: ' ' :: cs) (.comma :: ts) := .symbol (by decide) (spells_space h)
    exact spelled
  ends := ⟨',', [' '], rfl, rfl⟩

theorem toList_intercalate_cons_cons (sep first second : String) (rest : List String) :
    (sep.intercalate (first :: second :: rest)).toList =
      first.toList ++ (sep.toList ++ (sep.intercalate (second :: rest)).toList) := by
  simp [String.toList_intercalate, List.intercalate]

/-- Texts with separators between them spell the tokens of the texts with those of the separators
between them. -/
theorem exists_spells_intercalate {sep : String} {t : Token} (hs : Separates sep t) {α : Type}
    {f : α → String} {P : List Token → α → Prop} (first : α) (rest : List α)
    (h : ∀ a ∈ first :: rest, ∃ ts, Spells (f a).toList ts ∧ P ts a) :
    ∃ ts tss, Spells (sep.intercalate ((first :: rest).map f)).toList (ts ++ tss.flatMap (t :: ·)) ∧
      P ts first ∧ List.Forall₂ P tss rest := by
  induction rest generalizing first with
  | nil =>
    obtain ⟨ts, hts, hp⟩ := h first (.head _)
    refine ⟨ts, [], ?_, hp, .nil⟩
    simpa [String.toList_intercalate, List.intercalate] using hts
  | cons second rest ih =>
    obtain ⟨ts, hts, hp⟩ := h first (.head _)
    obtain ⟨us, uss, hus, hq, hr⟩ := ih second fun a ha => h a (.tail _ ha)
    refine ⟨ts, us :: uss, ?_, hp, .cons hq hr⟩
    obtain ⟨c, more, hc, hn⟩ := hs.ends
    rw [List.map_cons, List.map_cons, toList_intercalate_cons_cons]
    exact hts.append (hs.spells hus) (by rw [hc]; simpa using hn)

/-! ## The scanner -/

theorem scan_blank {c : Char} {offset : Nat} {cs : List Char} (h : Text.isAsciiBlank c = true) :
    scan offset (c :: cs) = scan (offset + c.utf8Size) cs := by
  rw [scan, if_pos h]

theorem scan_name {c : Char} {offset : Nat} {cs : List Char} (h : startsName c = true) :
    scan offset (c :: cs) =
      ⟨.name (String.ofList (c :: cs.takeWhile continuesName)), offset⟩ ::
        scan (offset + byteLength (c :: cs.takeWhile continuesName))
          (cs.dropWhile continuesName) := by
  rw [scan, if_neg (by simp [not_isAsciiBlank_of_startsName h]), if_pos h]

theorem scan_symbol {c : Char} {offset : Nat} {cs : List Char} (hb : Text.isAsciiBlank c = false)
    (hn : startsName c = false) :
    scan offset (c :: cs) = ⟨symbol c, offset⟩ :: scan (offset + c.utf8Size) cs := by
  rw [scan, if_neg (by simp [hb]), if_neg (by simp [hn])]

/-- The tokens that the scanner finds in a text, wherever the text starts. -/
def tokens (lexemes : List Lexeme) : List Token := lexemes.map (·.token)

@[simp] theorem tokens_nil : tokens [] = [] := rfl

@[simp] theorem tokens_cons (l : Lexeme) (ls : List Lexeme) :
    tokens (l :: ls) = l.token :: tokens ls := rfl

@[simp] theorem tokens_append (ls ms : List Lexeme) : tokens (ls ++ ms) = tokens ls ++ tokens ms :=
  List.map_append

theorem eq_cons_of_tokens {ls : List Lexeme} {t : Token} {ts : List Token}
    (h : tokens ls = t :: ts) : ∃ o more, ls = ⟨t, o⟩ :: more ∧ tokens more = ts := by
  obtain ⟨⟨_, o⟩, more, hl, rfl, hm⟩ := List.map_eq_cons_iff.1 h
  exact ⟨o, more, hl, hm⟩

theorem eq_append_of_tokens {ls : List Lexeme} {ts us : List Token} (h : tokens ls = ts ++ us) :
    ∃ before after, ls = before ++ after ∧ tokens before = ts ∧ tokens after = us :=
  List.map_eq_append_iff.1 h

theorem eq_nil_of_tokens {ls : List Lexeme} (h : tokens ls = []) : ls = [] :=
  List.map_eq_nil_iff.1 h

theorem takeWhile_append_of_head? {p : Char → Bool} {more cs : List Char}
    (hm : ∀ d ∈ more, p d = true) (hc : ∀ d ∈ cs.head?, p d = false) :
    (more ++ cs).takeWhile p = more ∧ (more ++ cs).dropWhile p = cs := by
  rw [List.takeWhile_append_of_pos hm, List.dropWhile_append_of_pos hm]
  cases cs with
  | nil => simp
  | cons d cs => simp [hc d rfl]

theorem tokens_scan_of_spells {cs : List Char} {ts : List Token} (h : Spells cs ts) :
    ∀ offset, tokens (scan offset cs) = ts := by
  induction h with
  | nil =>
    intro offset
    rw [scan, tokens_nil]
  | blank hc _ ih =>
    intro offset
    rw [scan_blank (mem_blanks.1 hc), ih]
  | symbol hc _ ih =>
    intro offset
    obtain ⟨hb, hn, rfl⟩ := of_mem_symbols hc
    rw [scan_symbol hb hn, tokens_cons, ih]
  | name hc hm hr _ ih =>
    intro offset
    obtain ⟨taken, dropped⟩ := takeWhile_append_of_head? hm hr
    rw [List.cons_append, scan_name hc, taken, dropped, tokens_cons, ih]

theorem head?_dropWhile {p : Char → Bool} (cs : List Char) :
    ∀ d ∈ (cs.dropWhile p).head?, p d = false := by
  intro d hd
  have := List.head?_dropWhile_not p cs
  rw [Option.mem_def] at hd
  rw [hd] at this
  simpa using this

/-- A text spells the tokens that the scanner finds, if each of them is a token of the grammar. -/
theorem spells_scan (offset : Nat) (cs : List Char)
    (h : ∀ c, .other c ∉ tokens (scan offset cs)) : Spells cs (tokens (scan offset cs)) := by
  fun_induction scan offset cs with
  | case1 => exact .nil
  | case2 offset c rest hb ih => exact .blank (mem_blanks.2 hb) (ih h)
  | case3 offset c rest hb hn name ih =>
    have spelled := ih fun d hd => h d (.tail _ hd)
    have split : c :: rest = c :: rest.takeWhile continuesName ++ rest.dropWhile continuesName := by
      rw [List.cons_append, List.takeWhile_append_dropWhile]
    rw [split]
    exact .name hn (List.all_eq_true.1 List.all_takeWhile) (head?_dropWhile rest) spelled
  | case4 offset c rest hb hn ih =>
    rcases symbol_cases c with hs | hs
    · exact .symbol hs (ih fun d hd => h d (.tail _ hd))
    · exact absurd (hs ▸ List.mem_cons_self) (h c)

theorem other_not_mem_of_spells {cs : List Char} {ts : List Token} (h : Spells cs ts) (c : Char) :
    .other c ∉ ts := by
  induction h with
  | nil => simp
  | blank _ _ ih => exact ih
  | symbol hc _ ih =>
    have known : ∀ p ∈ symbols, p.2 ≠ .other c := by simp [symbols]
    exact fun hm => (List.mem_cons.1 hm).elim (known _ hc).symm ih
  | name _ _ _ _ ih => simp [ih]

/-- **The scanner finds the tokens that a text spells**, if it spells any. -/
theorem spells_iff {cs : List Char} {ts : List Token} (offset : Nat) :
    Spells cs ts ↔ tokens (scan offset cs) = ts ∧ ∀ c, .other c ∉ ts := by
  constructor
  · exact fun h => ⟨tokens_scan_of_spells h offset, other_not_mem_of_spells h⟩
  · rintro ⟨rfl, h⟩
    exact spells_scan offset cs h

end FunctionApp.TypeExpr
