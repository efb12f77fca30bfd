import FunctionApp.Proofs.Json.RoundTrip

/-!
# Where the text of an object ends

Texts of objects can be told apart when they stand behind each other with nothing between them
(`eq_of_flatMap_eq`). The text of an object ends with the brace that closes its first one, and this
one is found by counting the braces outside of strings (`behind`): whatever is written inside an
object, of any depth and with any strings, is passed with as many closing braces as opening ones
(`passed_prettyAt`).
-/

namespace FunctionApp.Json

variable {s t text part more rest : List Char} {depth level : Nat} {c : Char}

/-- Where a reader stands: outside of strings, inside of one, or behind a backslash in one. -/
inductive Position where
  | outside
  | inside
  | escaped

/-- What stands behind the brace that closes the object in which the reader is, with so many further
objects open inside of it. -/
def behind : Position → Nat → List Char → Option (List Char)
  | _, _, [] => none
  | .outside, depth, c :: rest =>
    if c = '"' then behind .inside depth rest
    else if c = '\x7b' then behind .outside (depth + 1) rest
    else if c = '\x7d' then
      if depth = 0 then some rest else behind .outside (depth - 1) rest
    else behind .outside depth rest
  | .inside, depth, c :: rest =>
    if c = '\\' then behind .escaped depth rest
    else if c = '"' then behind .outside depth rest
    else behind .inside depth rest
  | .escaped, depth, _ :: rest => behind .inside depth rest

attribute [grind =] behind

/-- A text after which the reader stands where it stood before. -/
def Passed (text : List Char) : Prop :=
  ∀ depth rest, behind .outside depth (text ++ rest) = behind .outside depth rest

/-- The text of an object: all that stands between its braces is passed. -/
def Encloses (text : List Char) : Prop := ∃ body, text = '\x7b' :: body ++ ['\x7d'] ∧ Passed body

/-! ## Texts of objects -/

theorem behind_of_encloses (h : Encloses text) (rest : List Char) :
    ∃ body, text ++ rest = '\x7b' :: body ∧ behind .outside 0 body = some rest := by
  obtain ⟨body, rfl, passed⟩ := h
  refine ⟨body ++ '\x7d' :: rest, by simp, ?_⟩
  rw [passed, behind, if_neg (by decide), if_neg (by decide), if_pos rfl, if_pos rfl]

/-- No text of an object begins another one. -/
theorem Encloses.append_inj (hs : Encloses s) (ht : Encloses t) (h : s ++ more = t ++ rest) :
    s = t ∧ more = rest := by
  obtain ⟨_, first, ends⟩ := behind_of_encloses hs more
  obtain ⟨_, second, ends'⟩ := behind_of_encloses ht rest
  rw [← h, first, List.cons.injEq] at second
  rw [← second.2, ends, Option.some_inj] at ends'
  subst ends'
  exact ⟨List.append_cancel_right h, rfl⟩

/-- **Texts of objects one after the other are told apart.** -/
theorem eq_of_flatMap_eq {texts others : List String} (h : ∀ t ∈ texts, Encloses t.toList)
    (h' : ∀ t ∈ others, Encloses t.toList)
    (same : texts.flatMap String.toList = others.flatMap String.toList) : texts = others := by
  induction texts generalizing others with
  | nil =>
    cases others with
    | nil => rfl
    | cons other others =>
      obtain ⟨body, e, -⟩ := h' other (.head _)
      rw [List.flatMap_cons, e] at same
      cases same
  | cons text texts ih =>
    cases others with
    | nil =>
      obtain ⟨body, e, -⟩ := h text (.head _)
      rw [List.flatMap_cons, e] at same
      cases same
    | cons other others =>
      rw [List.flatMap_cons, List.flatMap_cons] at same
      obtain ⟨first, following⟩ := (h text (.head _)).append_inj (h' other (.head _)) same
      rw [String.toList_inj.1 first,
        ih (fun t ht => h t (.tail _ ht)) (fun t ht => h' t (.tail _ ht)) following]

/-! ## Texts that are passed -/

theorem passed_nil : Passed [] := fun _ _ => rfl

theorem Passed.append (hs : Passed s) (ht : Passed t) : Passed (s ++ t) := by
  intro depth rest
  rw [List.append_assoc, hs, ht]

theorem Passed.cons (hc : Passed [c]) (ht : Passed t) : Passed (c :: t) := hc.append ht

theorem Encloses.passed (h : Encloses text) : Passed text := by
  obtain ⟨body, rfl, passed⟩ := h
  intro depth rest
  have opened : '\x7b' :: body ++ ['\x7d'] ++ rest = '\x7b' :: (body ++ '\x7d' :: rest) := by simp
  rw [opened, behind, if_neg (by decide), if_pos rfl, passed, behind, if_neg (by decide),
    if_neg (by decide), if_pos rfl, if_neg (Nat.succ_ne_zero depth), Nat.add_sub_cancel]

/-- A text without quotation marks and braces. -/
def Bare (text : List Char) : Prop := ∀ c ∈ text, c ≠ '"' ∧ c ≠ '\x7b' ∧ c ≠ '\x7d'

instance (text : List Char) : Decidable (Bare text) := List.decidableBAll _ text

theorem Bare.append (hs : Bare s) (ht : Bare t) : Bare (s ++ t) := by
  intro c hc
  exact (List.mem_append.1 hc).elim (hs c) (ht c)

theorem Bare.of_subset (ht : Bare t) (h : s ⊆ t) : Bare s := fun c hc => ht c (h hc)

theorem Bare.passed (h : Bare text) : Passed text := by
  induction text with
  | nil => exact passed_nil
  | cons c text ih =>
    obtain ⟨quote, opening, closing⟩ := h c (.head _)
    refine .cons (fun depth rest => ?_) (ih fun c hc => h c (.tail _ hc))
    rw [List.singleton_append, behind, if_neg quote, if_neg opening, if_neg closing]

/-! ## Strings -/

theorem behind_escaped (depth : Nat) (c : Char) (rest : List Char) :
    behind .inside depth ('\\' :: c :: rest) = behind .inside depth rest := by
  rw [behind, if_pos rfl, behind]

theorem behind_plain (hb : c ≠ '\\') (hq : c ≠ '"') (depth : Nat) (rest : List Char) :
    behind .inside depth (c :: rest) = behind .inside depth rest := by
  rw [behind, if_neg hb, if_neg hq]

theorem hexDigit_ne {n : Nat} (h : n < 16) : Text.hexDigit n ≠ '\\' ∧ Text.hexDigit n ≠ '"' := by
  have all : ∀ k : Fin 16, Text.hexDigit k ≠ '\\' ∧ Text.hexDigit k ≠ '"' := by decide
  exact all ⟨n, h⟩

/-- No character ends the string that it stands in, however it is written. -/
theorem behind_escapeChar (c : Char) (depth : Nat) (rest : List Char) :
    behind .inside depth ((escapeChar c).toList ++ rest) = behind .inside depth rest := by
  unfold escapeChar
  by_cases hq : c = '"'
  · rw [if_pos hq]
    exact behind_escaped depth _ rest
  by_cases hb : c = '\\'
  · rw [if_neg hq, if_pos hb]
    exact behind_escaped depth _ rest
  rw [if_neg hq, if_neg hb]
  split
  · exact behind_escaped depth _ rest
  split
  · exact behind_escaped depth _ rest
  split
  · exact behind_escaped depth _ rest
  split
  · exact behind_escaped depth _ rest
  split
  · exact behind_escaped depth _ rest
  split
  · next control =>
    have high := hexDigit_ne (Nat.div_lt_of_lt_mul (show c.toNat < 16 * 16 by omega))
    have low := hexDigit_ne (Nat.mod_lt c.toNat (by decide : 16 > 0))
    have written : ("\\u00" ++ String.ofList [Text.hexDigit (c.toNat / 16),
        Text.hexDigit (c.toNat % 16)]).toList ++ rest = '\\' :: 'u' :: '0' :: '0' ::
          Text.hexDigit (c.toNat / 16) :: Text.hexDigit (c.toNat % 16) :: rest := by
      simp
    rw [written, behind_escaped, behind_plain (by decide) (by decide),
      behind_plain (by decide) (by decide), behind_plain high.1 high.2, behind_plain low.1 low.2]
  · have written : c.toString.toList ++ rest = c :: rest := by simp
    rw [written, behind_plain hb hq]

theorem passed_quote (text : String) : Passed (quote text).toList := by
  have inside (cs : List Char) (depth : Nat) (rest : List Char) :
      behind .inside depth (cs.flatMap (fun c => (escapeChar c).toList) ++ '"' :: rest) =
        behind .outside depth rest := by
    induction cs with
    | nil => rw [List.flatMap_nil, List.nil_append, behind, if_neg (by decide), if_pos rfl]
    | cons c cs ih => rw [List.flatMap_cons, List.append_assoc, behind_escapeChar, ih]
  intro depth rest
  rw [toList_quote, List.cons_append, List.cons_append, List.append_assoc, behind, if_pos rfl]
  exact inside _ depth rest

/-! ## Numbers -/

theorem bare_repr (n : Nat) : Bare (Nat.repr n).toList := by
  intro c hc
  rw [Nat.toList_repr] at hc
  have digit := Nat.isDigit_of_mem_toDigits (by decide) (by decide) hc
  refine ⟨?_, ?_, ?_⟩
  all_goals
    rintro rfl
    cases digit

theorem bare_int (n : Int) : Bare (toString n).toList := by
  cases n with
  | ofNat n => exact bare_repr n
  | negSucc n =>
    show Bare ("-" ++ Nat.repr (n + 1)).toList
    rw [String.toList_append]
    exact .append (by decide) (bare_repr (n + 1))

theorem bare_zeros (n : Nat) : Bare (Decimal.zeros n).toList := by
  intro c hc
  rw [Decimal.zeros, String.toList_ofList] at hc
  rw [(List.mem_replicate.1 hc).2]
  decide

theorem bare_exponent (style : Decimal.ExponentStyle) (exponent : Int) :
    Bare (style.write exponent).toList := by
  have sign : Bare (if exponent < 0 then "-" else if style = .signed then "+" else "").toList := by
    split
    · decide
    split
    · decide
    · decide
  rw [Decimal.ExponentStyle.write, String.toList_append, String.toList_append]
  exact .append (.append (by decide) sign) (bare_repr _)

theorem bare_decimal (style : Decimal.ExponentStyle) (d : Decimal) :
    Bare (d.text style).toList := by
  have digits := bare_repr d.digits
  have before (n : Nat) : Bare (String.ofList ((Nat.repr d.digits).toList.take n)).toList := by
    rw [String.toList_ofList]
    exact digits.of_subset (List.take_subset n _)
  have after (n : Nat) : Bare (String.ofList ((Nat.repr d.digits).toList.drop n)).toList := by
    rw [String.toList_ofList]
    exact digits.of_subset (List.drop_subset n _)
  unfold Decimal.text
  dsimp only
  split
  · rw [String.toList_append, String.toList_append]
    exact .append (.append digits (bare_zeros _)) (by decide)
  split
  · rw [String.toList_append, String.toList_append]
    exact .append (.append (before _) (by decide)) (after _)
  split
  · rw [String.toList_append, String.toList_append]
    exact .append (.append (by decide) (bare_zeros _)) digits
  · rw [String.toList_append, String.toList_append]
    refine .append (.append (before _) ?_) (bare_exponent style _)
    split
    · decide
    · rw [String.toList_append]
      exact .append (by decide) (after _)

theorem bare_double (style : Decimal.ExponentStyle) (d : Double) :
    Bare (d.text style).toList := by
  have sign : Bare (if d.isNegative then "-" else "").toList := by
    split
    · decide
    · decide
  unfold Double.text
  dsimp only
  split
  · rw [String.toList_append]
    exact sign.append (by decide)
  · rw [String.toList_append]
    exact sign.append (bare_decimal style _)

/-! ## Values -/

theorem bare_indent (level : Nat) : Bare (indent level).toList := by
  intro c hc
  rw [indent, String.toList_append] at hc
  rcases List.mem_append.1 hc with line | blank
  · exact (by decide : Bare "\n".toList) c line
  · rw [String.toList_ofList] at blank
    rw [(List.mem_replicate.1 blank).2]
    decide

theorem passed_lines (level : Nat) {parts : List String} (h : ∀ p ∈ parts, Passed p.toList) :
    Passed (lines level parts) := by
  induction parts with
  | nil => exact passed_nil
  | cons first parts ih =>
    have step := lines_cons_append level first parts []
    rw [List.append_nil, List.append_nil] at step
    rw [step]
    exact .cons (Bare.passed (by decide)) ((bare_indent level).passed.append
      ((h first (.head _)).append (ih fun p hp => h p (.tail _ hp))))

/-- Between its brackets a block has its parts and blanks. -/
theorem block_eq (opening closing : String) {o c : Char} (ho : opening.toList = [o])
    (hc : closing.toList = [c]) (level : Nat) {parts : List String}
    (h : ∀ p ∈ parts, Passed p.toList) :
    ∃ body, (block opening closing level parts).toList = o :: body ++ [c] ∧ Passed body := by
  cases parts with
  | nil => exact ⟨[], by simp [block, ho, hc], passed_nil⟩
  | cons first parts =>
    have written := block_append ho hc level first parts []
    rw [List.append_nil] at written
    refine ⟨_, ?_, (bare_indent (level + 1)).passed.append ((h first (.head _)).append
      ((passed_lines (level + 1) fun p hp => h p (.tail _ hp)).append
        (bare_indent level).passed))⟩
    rw [written]
    simp

theorem passed_memberText {write : Json → String} {m : String × Json}
    (h : Passed (write m.2).toList) : Passed (memberText write m).toList := by
  rw [memberText, String.toList_append, String.toList_append]
  exact .append (.append (passed_quote m.1) (Bare.passed (by decide))) h

/-- **What is written of a value is passed**, at any depth and whatever its strings hold. -/
theorem passed_prettyAt (v : Json) (level : Nat) : Passed (prettyAt level v).toList := by
  -- The parts of a value stand in lists, so the induction is on its size.
  induction size : sizeOf v using Nat.strongRecOn generalizing v level with
  | ind n ih =>
    subst size
    cases v with
    | null => exact Bare.passed (by rw [prettyAt]; decide)
    | bool b => cases b <;> exact Bare.passed (by rw [prettyAt]; decide)
    | int n =>
      rw [prettyAt]
      exact (bare_int n).passed
    | double d =>
      rw [prettyAt]
      exact (bare_double exponentStyle d).passed
    | text t =>
      rw [prettyAt]
      exact passed_quote t
    | array items =>
      have parts : ∀ p ∈ items.map (prettyAt (level + 1)), Passed p.toList := by
        intro p hp
        obtain ⟨item, hi, rfl⟩ := List.mem_map.1 hp
        have smaller : sizeOf item < sizeOf (Json.array items) := by
          have := List.sizeOf_lt_of_mem hi
          simp
          omega
        exact ih _ smaller item (level + 1) rfl
      obtain ⟨body, written, passed⟩ := block_eq "[" "]" rfl rfl level parts
      rw [prettyAt, prettyItems_eq_map, written]
      exact .append (.cons (Bare.passed (by decide)) passed) (Bare.passed (by decide))
    | object members =>
      have parts : ∀ p ∈ members.map (memberText (prettyAt (level + 1))), Passed p.toList := by
        intro p hp
        obtain ⟨⟨key, value⟩, hm, rfl⟩ := List.mem_map.1 hp
        have smaller : sizeOf value < sizeOf (Json.object members) := by
          have := List.sizeOf_lt_of_mem hm
          simp at *
          omega
        exact passed_memberText (ih _ smaller value (level + 1) rfl)
      rw [prettyAt, prettyMembers_eq_map]
      exact Encloses.passed (block_eq "\x7b" "\x7d" rfl rfl level parts)

/-- The text of an object ends with the brace that closes its first one. -/
theorem encloses_pretty (members : List (String × Json)) :
    Encloses (Json.object members).pretty.toList := by
  rw [pretty, prettyAt, prettyMembers_eq_map]
  refine block_eq "\x7b" "\x7d" rfl rfl 0 fun p hp => ?_
  obtain ⟨⟨key, value⟩, -, rfl⟩ := List.mem_map.1 hp
  exact passed_memberText (passed_prettyAt value 1)

end FunctionApp.Json
