import FunctionApp.Proofs.Json.Numbers
import FunctionApp.Proofs.Json.Readable
import FunctionApp.Proofs.Json.Strings

/-!
# Reading back values

A value is read back from its text (`read_pretty`) if the reader can give it at all (`Readable`) and
its doubles are read back from theirs.
-/

namespace FunctionApp.Json

variable {P : Double → Prop} {depth : Nat} {v : Json} {c : Char} {cs rest : List Char}

/-- A double whose text is read as the double. -/
def ReadsBack (d : Double) : Prop :=
  readValue 1 (Json.double d).pretty.toList = .ok (.double d, [])

/-! ## How values start -/

/-- No value starts with a blank or with a bracket that closes. -/
theorem head_of_readValue {r : Json × List Char} (h : readValue depth cs = .ok r) :
    ∃ c more, cs = c :: more ∧ isBlank c = false ∧ c ≠ ']' ∧ c ≠ '\x7d' := by
  cases depth with
  | zero => cases h
  | succ depth =>
    cases cs with
    | nil => cases h
    | cons c cs =>
      refine ⟨c, cs, rfl, ?_, ?_, ?_⟩
      · rw [← Bool.not_eq_true]
        intro hb
        simp only [isBlank, Bool.or_eq_true, beq_iff_eq] at hb
        rcases hb with ((rfl | rfl) | rfl) | rfl <;> cases h
      · rintro rfl
        cases h
      · rintro rfl
        cases h

theorem readValue_of_digit {n : Nat} (h : digit? c = some n) :
    readValue (depth + 1) (c :: cs) = readNumber false (c :: cs) := by
  have other {d : Char} (hd : digit? d = none) : c ≠ d := by
    rintro rfl
    cases hd.symm.trans h
  rw [readValue, if_pos (by simp [h])]
  all_goals exact other rfl

theorem readValue_array {more : List Char} (h : skipBlanks cs = c :: more) (hc : c ≠ ']') :
    readValue (depth + 2) ('[' :: cs) = (do
      let (items, rest) ← readParts (readValue (depth + 1)) ']' (c :: more).length [] (c :: more)
      return (.array items, rest)) := by
  rw [readValue, if_neg (by simp), h]
  split
  · next e => exact absurd (List.cons.inj e).1 hc
  · rfl

theorem readValue_object {more : List Char} (h : skipBlanks cs = c :: more) (hc : c ≠ '\x7d') :
    readValue (depth + 2) ('\x7b' :: cs) = (do
      let (members, rest) ← readParts (readMember (readValue (depth + 1))) '\x7d'
        (c :: more).length [] (c :: more)
      return (.object (collectMembers members), rest)) := by
  rw [readValue, if_neg (by simp), h]
  split
  · next e => exact absurd (List.cons.inj e).1 hc
  · rfl

/-! ## Numbers -/

theorem readWord_value {word : List Char} {r : Json × List Char}
    (h : readWord word v cs = .ok r) : r.1 = v := by
  unfold readWord at h
  split at h
  · cases h
    rfl
  · cases h

/-- A double starts with a digit or a minus sign. -/
theorem head_of_readValue_double {d : Double}
    (h : readValue 1 (c :: cs) = .ok (.double d, rest)) : c = '-' ∨ ∃ n, digit? c = some n := by
  refine (Decidable.em (c = '-')).imp_right fun hm => ?_
  cases hd : digit? c with
  | some n => exact ⟨n, rfl⟩
  | none =>
    by_cases hn : c = 'n'
    · subst hn
      cases readWord_value h
    by_cases ht : c = 't'
    · subst ht
      cases readWord_value h
    by_cases hf : c = 'f'
    · subst hf
      cases readWord_value h
    by_cases hq : c = '"'
    · subst hq
      obtain ⟨t, _, e⟩ := bind_eq_ok.1 h
      cases e
    by_cases ha : c = '['
    · subst ha
      cases h
    by_cases ho : c = '\x7b'
    · subst ho
      cases h
    rw [readValue, hd] at h
    · cases h
    all_goals assumption

/-- A double is read back wherever its text stands. -/
theorem readValue_double_append {d : Double} (h : ReadsBack d) (hs : Stops rest) :
    readValue (depth + 1) ((Json.double d).pretty.toList ++ rest) = .ok (.double d, rest) := by
  unfold ReadsBack at h
  generalize (Json.double d).pretty.toList = cs at h
  cases cs with
  | nil => cases h
  | cons c cs =>
    rw [List.cons_append]
    rcases head_of_readValue_double h with rfl | ⟨n, hd⟩
    · exact readNumber_append hs h
    · rw [readValue_of_digit hd] at h ⊢
      exact readNumber_append hs h

theorem readValue_int {n : Int} (word : n.natAbs ≤ maxWord)
    (signed : n < 0 → n.natAbs ≤ Nat.pow 2 63) (hs : Stops rest) :
    readValue (depth + 1) ((toString n).toList ++ rest) = .ok (.int n, rest) := by
  cases n with
  | ofNat n =>
    obtain ⟨d, more, e, hd, -⟩ := head_toDigits n
    have text : (toString (Int.ofNat n)).toList = Nat.toDigits 10 n := String.toList_ofList
    have read : readNumber false (Nat.toDigits 10 n ++ rest) =
        (do return (← whole false n 0, rest)) := readNumber_digits word hs false
    rw [text]
    rw [e, List.cons_append] at read ⊢
    rw [readValue_of_digit (digit?_digitChar hd), read]
    rfl
  | negSucc n =>
    have text : (toString (Int.negSucc n)).toList = '-' :: Nat.toDigits 10 (n + 1) := by
      show ("-" ++ Nat.repr (n + 1)).toList = _
      simp [Nat.repr]
    have read : readNumber true (Nat.toDigits 10 (n + 1) ++ rest) =
        (do return (← whole true (n + 1) 0, rest)) :=
      readNumber_digits word hs true
    have value : whole true (n + 1) 0 = .ok (.int (Int.negSucc n)) := by
      have fits : n + 1 ≤ Nat.pow 2 63 := signed (Int.negSucc_lt_zero n)
      rw [whole, if_neg (by simp), if_neg (by simp), if_neg (by omega)]
      rfl
    rw [text]
    show readNumber true (Nat.toDigits 10 (n + 1) ++ rest) = _
    rw [read, value]
    rfl

/-! ## Lines -/

theorem stops_indent (level : Nat) (rest : List Char) : Stops ((indent level).toList ++ rest) := by
  have lines : (indent level).toList = '\n' :: List.replicate (2 * level) ' ' := by simp [indent]
  rw [lines]
  exact stops_cons rfl (by decide) (by decide) (by decide)

theorem skipBlanks_of_nonblank (h : isBlank c = false) : skipBlanks (c :: cs) = c :: cs :=
  List.dropWhile_cons_of_neg (by simp [h])

theorem skipBlanks_indent (level : Nat) (h : isBlank c = false) :
    skipBlanks ((indent level).toList ++ c :: cs) = c :: cs := by
  have lines : (indent level).toList = '\n' :: List.replicate (2 * level) ' ' := by simp [indent]
  have blanks : ∀ b ∈ (indent level).toList, isBlank b = true := by
    intro b hb
    rw [lines] at hb
    rcases List.mem_cons.1 hb with rfl | hb
    · rfl
    · rw [(List.mem_replicate.1 hb).2]
      rfl
  rw [skipBlanks, List.dropWhile_append_of_pos blanks]
  exact skipBlanks_of_nonblank h

theorem skipBlanks_of_readValue {r : Json × List Char} (h : readValue depth cs = .ok r)
    (level : Nat) : skipBlanks ((indent level).toList ++ cs) = cs := by
  obtain ⟨c, more, rfl, hb, -⟩ := head_of_readValue h
  exact skipBlanks_indent level hb

/-- The text of the parts of an array or an object behind the first one. -/
def lines (level : Nat) (parts : List String) : List Char :=
  parts.flatMap fun part => ',' :: ((indent level).toList ++ part.toList)

theorem lines_cons_append (level : Nat) (part : String) (parts : List String) (rest : List Char) :
    lines level (part :: parts) ++ rest =
      ',' :: ((indent level).toList ++ (part.toList ++ (lines level parts ++ rest))) := by
  simp [lines]

theorem toList_block (opening closing part : String) (level : Nat) (parts : List String) :
    (block opening closing level (part :: parts)).toList =
      opening.toList ++ ((indent (level + 1)).toList ++ (part.toList ++
        (lines (level + 1) parts ++ ((indent level).toList ++ closing.toList)))) := by
  have joined : ∀ first : String, (String.intercalate ","
      ((first :: parts).map (indent (level + 1) ++ ·))).toList =
        (indent (level + 1)).toList ++ (first.toList ++ lines (level + 1) parts) := by
    induction parts with
    | nil => simp [lines]
    | cons next parts ih =>
      intro first
      have others := ih next
      rw [List.map_cons] at others
      rw [List.map_cons, List.map_cons, String.intercalate_cons_cons, String.toList_append, others]
      simp [lines]
  have text : block opening closing level (part :: parts) =
      opening ++ String.intercalate "," ((part :: parts).map (indent (level + 1) ++ ·)) ++
        indent level ++ closing := rfl
  rw [text, String.toList_append, String.toList_append, String.toList_append, joined part]
  simp

theorem length_le_length_lines (level : Nat) (parts : List String) :
    parts.length ≤ (lines level parts).length := by
  induction parts with
  | nil => exact Nat.zero_le _
  | cons part parts ih =>
    have step := lines_cons_append level part parts []
    rw [List.append_nil, List.append_nil] at step
    rw [step, List.length_cons, List.length_cons, List.length_append, List.length_append]
    omega

/-! ## Parts -/

theorem stops_comma (rest : List Char) : Stops (',' :: rest) :=
  stops_cons rfl (by decide) (by decide) (by decide)

/-- What stands behind a part cannot belong to it. -/
theorem stops_lines (level outer : Nat) (parts : List String) (rest : List Char) :
    Stops (lines level parts ++ ((indent outer).toList ++ rest)) := by
  cases parts with
  | nil => exact stops_indent outer rest
  | cons part parts =>
    rw [lines_cons_append]
    exact stops_comma _

section Parts

variable {α : Type} {part : List Char → Except Fault (α × List Char)} {closing : Char} {fuel : Nat}
  {done : List α} {a : α} {more : List Char}

theorem readParts_next (h : part cs = .ok (a, ',' :: more)) :
    readParts part closing (fuel + 1) done cs =
      readParts part closing fuel (a :: done) (skipBlanks more) := by
  rw [readParts, h]
  simp only [bind, Except.bind]
  rw [skipBlanks_of_nonblank rfl]
  exact if_pos rfl

theorem readParts_last (h : part cs = .ok (a, more)) (hb : skipBlanks more = closing :: rest)
    (hc : closing ≠ ',') :
    readParts part closing (fuel + 1) done cs = .ok ((a :: done).reverse, rest) := by
  rw [readParts, h]
  simp only [bind, Except.bind]
  rw [hb]
  dsimp only
  rw [if_neg hc, if_pos rfl]
  rfl

/-- A part is read back from its text whatever stands behind it that cannot belong to it, and the
indentation before it is passed over. -/
def ReadsPart (part : List Char → Except Fault (α × List Char)) (write : α → String) (level : Nat)
    (a : α) : Prop :=
  ∀ rest, Stops rest → part ((write a).toList ++ rest) = .ok (a, rest) ∧
    skipBlanks ((indent level).toList ++ ((write a).toList ++ rest)) = (write a).toList ++ rest

/-- Parts are read back from their lines, if each of them is. -/
theorem readParts_lines {write : α → String} {level outer : Nat} (rest : List Char)
    (hb : isBlank closing = false) (hc : closing ≠ ',') (parts : List α) (first : α) (done : List α)
    {fuel : Nat} (hf : parts.length < fuel)
    (h : ∀ a ∈ first :: parts, ReadsPart part write level a) :
    readParts part closing fuel done ((write first).toList ++ (lines level (parts.map write) ++
      ((indent outer).toList ++ closing :: rest))) = .ok (done.reverse ++ first :: parts, rest) := by
  induction parts generalizing first done fuel with
  | nil =>
    obtain ⟨fuel, rfl⟩ := Nat.exists_eq_add_of_lt hf
    have none : lines level (([] : List α).map write) = [] := rfl
    have value := (h first (.head _) _ (stops_indent outer (closing :: rest))).1
    rw [none, List.nil_append, readParts_last value (skipBlanks_indent outer hb) hc,
      List.reverse_cons]
  | cons next parts ih =>
    obtain ⟨fuel, rfl⟩ := Nat.exists_eq_add_of_lt hf
    have stops := stops_lines level outer (parts.map write) (closing :: rest)
    have skipped := (h next (.tail _ (.head _)) _ stops).2
    have value := (h first (.head _) _ (stops_comma ((indent level).toList ++
      ((write next).toList ++ (lines level (parts.map write) ++
        ((indent outer).toList ++ closing :: rest)))))).1
    have enough : parts.length < (next :: parts).length + fuel := by
      rw [List.length_cons]
      omega
    have others := ih next (first :: done) enough fun a ha => h a (.tail _ ha)
    rw [List.map_cons, lines_cons_append, readParts_next value, skipped, others, List.reverse_cons,
      List.append_assoc]
    rfl

/-- Parts are read back up to the bracket behind them. -/
theorem readParts_length {write : α → String} {level outer : Nat} {rest : List Char}
    (hb : isBlank closing = false) (hc : closing ≠ ',') (first : α) (parts : List α)
    (h : ∀ a ∈ first :: parts, ReadsPart part write level a)
    {text : List Char} (ht : text = (write first).toList ++ (lines level (parts.map write) ++
      ((indent outer).toList ++ closing :: rest))) :
    readParts part closing text.length [] text = .ok (first :: parts, rest) := by
  have enough : parts.length < text.length := by
    have many := length_le_length_lines level (parts.map write)
    rw [List.length_map] at many
    rw [ht, List.length_append, List.length_append, List.length_append, List.length_cons]
    omega
  have read : readParts part closing text.length [] ((write first).toList ++
      (lines level (parts.map write) ++ ((indent outer).toList ++ closing :: rest))) =
        .ok (first :: parts, rest) := readParts_lines rest hb hc parts first [] enough h
  rw [← ht] at read
  exact read

end Parts

/-- How a member is written. -/
def memberText (write : Json → String) (m : String × Json) : String :=
  quote m.1 ++ ": " ++ write m.2

/-- A member is read back from its text, if its value is. -/
theorem readMember_text {write : Json → String} {m : String × Json} {more : List Char}
    (hv : readValue depth ((write m.2).toList ++ more) = .ok (m.2, more)) (level : Nat) :
    readMember (readValue depth) ((memberText write m).toList ++ more) = .ok (m, more) ∧
      skipBlanks ((indent level).toList ++ ((memberText write m).toList ++ more)) =
        (memberText write m).toList ++ more := by
  have text : (memberText write m).toList ++ more =
      (quote m.1).toList ++ (':' :: ' ' :: ((write m.2).toList ++ more)) := by
    simp [memberText]
  obtain ⟨chars, hq, key⟩ := readString_quoted m.1 (':' :: ' ' :: ((write m.2).toList ++ more))
  have blank : skipBlanks (' ' :: ((write m.2).toList ++ more)) = (write m.2).toList ++ more := by
    obtain ⟨c, cs, e, hb, -⟩ := head_of_readValue hv
    rw [e]
    exact skipBlanks_of_nonblank hb
  rw [text, hq]
  refine ⟨?_, skipBlanks_indent level rfl⟩
  rw [readMember, if_pos rfl]
  refine bind_eq_ok.2 ⟨_, key, ?_⟩
  dsimp only
  rw [skipBlanks_of_nonblank rfl, readMemberValue, if_pos rfl, blank]
  exact bind_eq_ok.2 ⟨_, hv, rfl⟩

theorem head_of_readMember {item : List Char → Except Fault (Json × List Char)}
    {r : (String × Json) × List Char} (h : readMember item cs = .ok r) :
    ∃ c more, cs = c :: more ∧ c ≠ '\x7d' := by
  cases cs with
  | nil => cases h
  | cons c cs =>
    refine ⟨c, cs, rfl, ?_⟩
    rintro rfl
    cases h

theorem prettyItems_eq_map (level : Nat) (items : List Json) :
    prettyItems level items = items.map (prettyAt level) := by
  induction items with
  | nil => rfl
  | cons item items ih => rw [prettyItems, ih, List.map_cons]

theorem prettyMembers_eq_map (level : Nat) (members : List (String × Json)) :
    prettyMembers level members = members.map (memberText (prettyAt level)) := by
  induction members with
  | nil => rfl
  | cons m members ih => rw [prettyMembers, ih, List.map_cons, memberText]

theorem block_nil_append {opening closing : String} {o c : Char} (ho : opening.toList = [o])
    (hc : closing.toList = [c]) (level : Nat) (rest : List Char) :
    (block opening closing level []).toList ++ rest = o :: c :: rest := by
  simp [block, ho, hc]

/-- Parts within their brackets. -/
theorem block_append {opening closing : String} {o c : Char} (ho : opening.toList = [o])
    (hc : closing.toList = [c]) (level : Nat) (part : String) (parts : List String)
    (rest : List Char) :
    (block opening closing level (part :: parts)).toList ++ rest =
      o :: ((indent (level + 1)).toList ++ (part.toList ++ (lines (level + 1) parts ++
        ((indent level).toList ++ c :: rest)))) := by
  rw [toList_block, ho, hc]
  simp

/-- An array is read back from its text, if each of its items is. -/
theorem readValue_items (level : Nat) {items : List Json}
    (h : ∀ v ∈ items,
      ReadsPart (readValue (depth + 1)) (prettyAt (level + 1)) (level + 1) v) (rest : List Char) :
    readValue (depth + 2) ((prettyAt level (.array items)).toList ++ rest) =
      .ok (.array items, rest) := by
  rw [prettyAt, prettyItems_eq_map]
  cases items with
  | nil =>
    rw [List.map_nil, block_nil_append (o := '[') (c := ']') rfl rfl]
    rfl
  | cons first items =>
    rw [List.map_cons, block_append (o := '[') (c := ']') rfl rfl]
    obtain ⟨start, skipped⟩ := h first (.head _) _
      (stops_lines (level + 1) level (items.map (prettyAt (level + 1))) (']' :: rest))
    obtain ⟨c, more, e, -, hc, -⟩ := head_of_readValue start
    have read := readParts_length rfl (by decide) first items h e.symm
    rw [e] at skipped
    rw [e, readValue_array skipped hc]
    exact bind_eq_ok.2 ⟨_, read, rfl⟩

/-- An object with distinct keys is read back from its text, if each of its members is. -/
theorem readValue_members (level : Nat) {members : List (String × Json)}
    (distinct : (keys members).Nodup)
    (h : ∀ m ∈ members, ReadsPart (readMember (readValue (depth + 1)))
      (memberText (prettyAt (level + 1))) (level + 1) m) (rest : List Char) :
    readValue (depth + 2) ((prettyAt level (.object members)).toList ++ rest) =
      .ok (.object members, rest) := by
  rw [prettyAt, prettyMembers_eq_map]
  cases members with
  | nil =>
    rw [List.map_nil, block_nil_append (o := '\x7b') (c := '\x7d') rfl rfl]
    rfl
  | cons first members =>
    rw [List.map_cons, block_append (o := '\x7b') (c := '\x7d') rfl rfl]
    obtain ⟨start, skipped⟩ := h first (.head _) _ (stops_lines (level + 1) level
      (members.map (memberText (prettyAt (level + 1)))) ('\x7d' :: rest))
    obtain ⟨c, more, e, hc⟩ := head_of_readMember start
    have read := readParts_length rfl (by decide) first members h e.symm
    rw [e] at skipped
    rw [e, readValue_object skipped hc]
    refine bind_eq_ok.2 ⟨_, read, ?_⟩
    dsimp only
    rw [collectMembers_of_nodup distinct]
    rfl

/-- **A value is read back** from its text at any depth. -/
theorem readValue_prettyAt (hP : ∀ d, P d → ReadsBack d) (h : Readable P depth v) (level : Nat)
    {rest : List Char} (hs : Stops rest) :
    readValue depth ((prettyAt level v).toList ++ rest) = .ok (v, rest) := by
  induction h generalizing level rest with
  | null depth =>
    rw [prettyAt]
    rfl
  | bool depth b =>
    cases b
    all_goals
      rw [prettyAt]
      rfl
  | int depth word signed =>
    rw [prettyAt]
    exact readValue_int word signed hs
  | @double depth d h =>
    have text : prettyAt level (.double d) = (Json.double d).pretty := by
      rw [pretty, prettyAt, prettyAt]
    rw [text]
    exact readValue_double_append (hP d h) hs
  | text depth t =>
    obtain ⟨more, hq, ht⟩ := readString_quoted t rest
    rw [prettyAt, hq, readValue]
    exact bind_eq_ok.2 ⟨_, ht, rfl⟩
  | array h ih =>
    refine readValue_items level (fun item hi rest hs => ?_) rest
    have value := ih item hi (level + 1) hs
    exact ⟨value, skipBlanks_of_readValue value (level + 1)⟩
  | object distinct h ih =>
    refine readValue_members level distinct (fun m hm rest hs => ?_) rest
    exact readMember_text (ih m hm (level + 1) hs) (level + 1)

/-- **A value is read back from its text** if the reader can give it and its doubles are read back.
-/
theorem read_pretty (h : Readable ReadsBack 128 v) : read v.pretty = .ok v := by
  have nothing : Stops [] := fun c hc => by cases hc
  have value := readValue_prettyAt (fun _ h => h) h 0 nothing
  rw [List.append_nil] at value
  obtain ⟨c, more, e, hb, -⟩ := head_of_readValue value
  have start : skipBlanks (prettyAt 0 v).toList = (prettyAt 0 v).toList := by
    rw [e]
    exact skipBlanks_of_nonblank hb
  rw [read, pretty, start]
  exact bind_eq_ok.2 ⟨_, value, rfl⟩

end FunctionApp.Json
