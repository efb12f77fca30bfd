import FunctionApp.Json.Reader
import FunctionApp.Proofs.Json.Members
import FunctionApp.Proofs.Results

/-!
# What the reader gives

Values that the reader gives (`readable_of_read`) have integers of 64 bits, objects with one member
under each key, and are not nested too deep.
-/

namespace FunctionApp.Json

variable {P Q : Double → Prop} {depth : Nat} {v : Json}

/-- A value that the reader can give, nested less than `depth` deep, with doubles of some kind. -/
inductive Readable (P : Double → Prop) : Nat → Json → Prop where
  | null (depth : Nat) : Readable P (depth + 1) .null
  | bool (depth : Nat) (b : Bool) : Readable P (depth + 1) (.bool b)
  | int (depth : Nat) {n : Int} (word : n.natAbs ≤ maxWord)
      (signed : n < 0 → n.natAbs ≤ Nat.pow 2 63) : Readable P (depth + 1) (.int n)
  | double (depth : Nat) {d : Double} (h : P d) : Readable P (depth + 1) (.double d)
  | text (depth : Nat) (t : String) : Readable P (depth + 1) (.text t)
  | array {depth : Nat} {items : List Json} (h : ∀ item ∈ items, Readable P (depth + 1) item) :
      Readable P (depth + 2) (.array items)
  | object {depth : Nat} {members : List (String × Json)} (distinct : (keys members).Nodup)
      (h : ∀ m ∈ members, Readable P (depth + 1) m.2) : Readable P (depth + 2) (.object members)

/-- A double that stands somewhere in a value. -/
inductive Has (d : Double) : Json → Prop where
  | double : Has d (.double d)
  | item {items : List Json} {item : Json} (h : item ∈ items) (hd : Has d item) :
      Has d (.array items)
  | member {members : List (String × Json)} {m : String × Json} (h : m ∈ members)
      (hd : Has d m.2) : Has d (.object members)

theorem Readable.of_has (h : Readable P depth v) (hQ : ∀ d, Has d v → Q d) : Readable Q depth v := by
  induction h with
  | null depth => exact .null depth
  | bool depth b => exact .bool depth b
  | int depth word signed => exact .int depth word signed
  | double depth _ => exact .double depth (hQ _ .double)
  | text depth t => exact .text depth t
  | array _ ih => exact .array fun item hi => ih item hi fun d hd => hQ d (.item hi hd)
  | object distinct _ ih => exact .object distinct fun m hm => ih m hm fun d hd => hQ d (.member hm hd)

theorem Readable.empty (depth : Nat) : Readable P (depth + 2) (.object []) :=
  .object List.nodup_nil (by simp)

/-- An object with one more member. -/
theorem Readable.cons {members : List (String × Json)} {key : String} (fresh : key ∉ keys members)
    (hv : Readable P (depth + 1) v) (h : Readable P (depth + 2) (.object members)) :
    Readable P (depth + 2) (.object ((key, v) :: members)) := by
  cases h with
  | object distinct h =>
    refine .object (List.nodup_cons.2 ⟨fresh, distinct⟩) fun m hm => ?_
    rcases List.mem_cons.1 hm with rfl | hm
    · exact hv
    · exact h m hm

/-! ## Numbers -/

section Numbers

variable {negative : Bool} {significand taken dropped : Nat} {exponent : Int}

/-- A value that the reader can give, with doubles of any kind, and the text behind it. -/
abbrev IsRead (depth : Nat) (r : Json × List Char) : Prop := Readable (fun _ => True) depth r.1

theorem readDigits_le (h : significand ≤ maxWord) (cs : List Char) :
    (readDigits significand taken dropped cs).1 ≤ maxWord := by
  induction cs generalizing significand taken dropped with
  | nil => exact h
  | cons c cs ih =>
    rw [readDigits]
    split
    · exact h
    · split
      · next hc => exact ih hc.2
      · exact ih h

theorem scaled_gives : Gives (Readable (fun _ => True) (depth + 1))
    (scaled negative significand exponent) :=
  .bind fun _ => .ok (.double depth trivial)

theorem readScale_gives (down : Bool) (cs : List Char) :
    Gives (IsRead (depth + 1)) (readScale negative significand exponent down cs) := by
  unfold readScale
  split
  · exact .error _
  · split
    · exact .error _
    · dsimp only
      split
      · exact .bind_of scaled_gives fun _ h => .ok h
      · split
        · exact .error _
        · exact .ok (.double depth trivial)

theorem readExponent_gives (cs : List Char) :
    Gives (IsRead (depth + 1)) (readExponent negative significand exponent cs) := by
  unfold readExponent
  split
  all_goals exact readScale_gives _ _

theorem readPower_gives (cs : List Char) :
    Gives (IsRead (depth + 1)) (readPower negative significand exponent cs) := by
  unfold readPower
  split
  · exact readExponent_gives _
  · exact readExponent_gives _
  · exact .bind_of scaled_gives fun _ h => .ok h

theorem readDecimals_gives (cs : List Char) :
    Gives (IsRead (depth + 1)) (readDecimals negative significand dropped cs) := by
  unfold readDecimals
  split
  · exact .error _
  · split
    · exact .error _
    · exact readPower_gives _

theorem whole_gives (h : significand ≤ maxWord) :
    Gives (Readable (fun _ => True) (depth + 1)) (whole negative significand dropped) := by
  unfold whole
  split
  · exact scaled_gives
  · split
    · exact .ok (.int depth h fun hn => absurd hn (Int.not_lt.2 (Int.natCast_nonneg _)))
    · split
      · exact .ok (.double depth trivial)
      · next hs =>
        exact .ok (.int depth (by omega) fun _ => by omega)

theorem readFraction_gives (h : significand ≤ maxWord) (cs : List Char) :
    Gives (IsRead (depth + 1)) (readFraction negative significand dropped cs) := by
  unfold readFraction
  split
  · exact readDecimals_gives _
  · exact readExponent_gives _
  · exact readExponent_gives _
  · exact .bind_of (whole_gives h) fun _ h => .ok h

theorem readNumber_gives (cs : List Char) :
    Gives (IsRead (depth + 1)) (readNumber negative cs) := by
  unfold readNumber
  split
  · exact .error _
  · split
    · exact .error _
    · exact readFraction_gives (Nat.zero_le _) _
  · next c rest _ =>
    split
    · exact .error _
    · have fits : (readDigits 0 0 0 (c :: rest)).1 ≤ maxWord := readDigits_le (Nat.zero_le _) _
      exact readFraction_gives fits _

end Numbers

/-! ## Values -/

theorem readWord_gives {word : List Char} {cs : List Char}
    (h : Readable (fun _ => True) depth v) : Gives (IsRead depth) (readWord word v cs) := by
  unfold readWord
  split
  · exact .ok h
  · exact .error _

theorem readParts_gives {α : Type} {R : α → Prop}
    {part : List Char → Except Fault (α × List Char)} {closing : Char}
    (hp : ∀ cs, Gives (fun r => R r.1) (part cs)) (fuel : Nat) (done : List α)
    (hd : ∀ a ∈ done, R a) (cs : List Char) :
    Gives (fun r => ∀ a ∈ r.1, R a) (readParts part closing fuel done cs) := by
  induction fuel generalizing done cs with
  | zero => exact .error _
  | succ fuel ih =>
    unfold readParts
    refine .bind_of (hp cs) fun r hr => ?_
    have hd' : ∀ a ∈ r.1 :: done, R a := by
      intro a ha
      rcases List.mem_cons.1 ha with rfl | ha
      · exact hr
      · exact hd a ha
    dsimp only
    split
    · exact .error _
    · split
      · exact ih _ hd' _
      · split
        · exact .ok fun a ha => hd' a (List.mem_reverse.1 ha)
        · exact .error _

theorem readMember_gives {R : Json → Prop} {item : List Char → Except Fault (Json × List Char)}
    (hi : ∀ cs, Gives (fun r => R r.1) (item cs)) (cs : List Char) :
    Gives (fun r => R r.1.2) (readMember item cs) := by
  have value (key : String) (cs : List Char) :
      Gives (fun r => R r.1.2) (readMemberValue item key cs) := by
    unfold readMemberValue
    split
    · exact .error _
    · split
      · exact .bind_of (hi _) fun _ h => .ok h
      · exact .error _
  unfold readMember
  split
  · exact .error _
  · split
    · exact .bind fun _ => value _ _
    · exact .error _

theorem readValue_gives (depth : Nat) (cs : List Char) :
    Gives (IsRead depth) (readValue depth cs) := by
  induction depth generalizing cs with
  | zero => exact .error _
  | succ depth ih =>
    unfold readValue
    split
    · exact .error _
    · exact readWord_gives (.null depth)
    · exact readWord_gives (.bool depth true)
    · exact readWord_gives (.bool depth false)
    · exact readNumber_gives _
    · exact .bind fun _ => .ok (.text depth _)
    · split
      · exact .error _
      · next hd =>
        obtain ⟨depth, rfl⟩ := Nat.exists_eq_succ_of_ne_zero hd
        split
        · exact .ok (.array (by simp))
        · exact .bind_of (readParts_gives ih _ _ (by simp) _) fun _ h => .ok (.array h)
    · split
      · exact .error _
      · next hd =>
        obtain ⟨depth, rfl⟩ := Nat.exists_eq_succ_of_ne_zero hd
        split
        · exact .ok (.object List.nodup_nil (by simp))
        · have members := readMember_gives ih
          refine .bind_of (readParts_gives (R := fun m => Readable (fun _ => True) (depth + 1) m.2)
            members _ _ (by simp) _) fun _ h => .ok ?_
          exact .object (nodup_collectMembers _) fun m hm => h m (mem_collectMembers hm)
    · split
      · exact readNumber_gives _
      · exact .error _

/-- **What the reader gives** can be given by it, whatever its doubles are. -/
theorem readable_of_read {text : String} (h : read text = .ok v) :
    Readable (fun _ => True) 128 v := by
  obtain ⟨r, hr, h⟩ := bind_eq_ok.1 h
  have given := readValue_gives 128 _ r hr
  dsimp only at h
  split at h
  · cases h
    exact given
  · cases h

end FunctionApp.Json
