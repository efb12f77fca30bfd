import FunctionApp.Json.Printer
import FunctionApp.Json.Reader
import FunctionApp.Proofs.Results

/-!
# Reading back numbers

What is read of a number does not depend on what stands behind it, as long as that cannot belong to
it (`readNumber_append`). The digits of an integer that fits in 64 bits are read back to it
(`readNumber_digits`).
-/

namespace FunctionApp.Json

variable {negative : Bool} {significand taken dropped : Nat} {cs rest more : List Char} {c : Char}

/-- Text that cannot belong to the number before it. -/
def Stops (rest : List Char) : Prop :=
  ∀ c ∈ rest.head?, digit? c = none ∧ c ≠ '.' ∧ c ≠ 'e' ∧ c ≠ 'E'

theorem stops_cons (hd : digit? c = none) (hp : c ≠ '.') (he : c ≠ 'e') (hE : c ≠ 'E') :
    Stops (c :: rest) := by
  intro d h
  obtain rfl : c = d := Option.some.inj h
  exact ⟨hd, hp, he, hE⟩

/-! ## Digits -/

theorem readDigits_of_stops (h : Stops rest) :
    readDigits significand taken dropped rest = (significand, taken, dropped, rest) := by
  cases rest with
  | nil => rfl
  | cons c rest => rw [readDigits, (h c rfl).1]

theorem readDigits_append (h : Stops rest) {s t d : Nat}
    (hr : readDigits significand taken dropped cs = (s, t, d, more)) :
    readDigits significand taken dropped (cs ++ rest) = (s, t, d, more ++ rest) := by
  induction cs generalizing significand taken dropped with
  | nil =>
    cases hr
    exact readDigits_of_stops h
  | cons c cs ih =>
    rw [readDigits] at hr
    rw [List.cons_append, readDigits]
    cases hd : digit? c with
    | none =>
      rw [hd] at hr
      cases hr
      rfl
    | some v =>
      rw [hd] at hr
      dsimp only at hr ⊢
      split
      · next hc =>
        rw [if_pos hc] at hr
        exact ih hr
      · next hc =>
        rw [if_neg hc] at hr
        exact ih hr

theorem digit?_digitChar {n : Nat} (h : n < 10) : digit? n.digitChar = some n := by
  have all : ∀ k : Fin 10, digit? (Nat.digitChar k) = some k.val := by decide
  exact all ⟨n, h⟩

/-- The digits of a number are read to the number, if it fits. -/
theorem readDigits_toDigits {n : Nat} (h : n ≤ maxWord) (rest : List Char) :
    ∃ taken, readDigits 0 0 0 (Nat.toDigits 10 n ++ rest) = readDigits n taken 0 rest := by
  induction n using Nat.strongRecOn generalizing rest with
  | ind n ih =>
    have last (m t : Nat) {k : Nat} (hk : k < 10) (hm : m * 10 + k ≤ maxWord) :
        readDigits m t 0 (k.digitChar :: rest) = readDigits (m * 10 + k) (t + 1) 0 rest := by
      rw [readDigits, digit?_digitChar hk]
      dsimp only
      rw [if_pos ⟨rfl, hm⟩]
    rw [Nat.toDigits_eq_if (by decide)]
    split
    · next hn =>
      refine ⟨1, ?_⟩
      simpa using last 0 0 hn (by omega)
    · next hn =>
      have whole : n / 10 * 10 + n % 10 = n := by omega
      obtain ⟨taken, ht⟩ := ih (n / 10) (by omega) (by omega) ((n % 10).digitChar :: rest)
      have single := last (n / 10) taken (Nat.mod_lt n (by decide)) (by omega)
      rw [whole] at single
      rw [List.append_assoc]
      exact ⟨taken + 1, ht.trans single⟩

/-! ## Parts of a number -/

theorem readScale_append {exponent : Int} {down : Bool} {v : Json} (h : Stops rest)
    (hr : readScale negative significand exponent down cs = .ok (v, more)) :
    readScale negative significand exponent down (cs ++ rest) = .ok (v, more ++ rest) := by
  cases cs with
  | nil => cases hr
  | cons c cs =>
    rw [readScale] at hr
    rw [List.cons_append, readScale]
    split
    · next hd =>
      rw [if_pos hd] at hr
      cases hr
    · next hd =>
      rw [if_neg hd] at hr
      rcases hs : readDigits 0 0 0 (c :: cs) with ⟨value, taken, dropped, left⟩
      rw [hs] at hr
      rw [← List.cons_append, readDigits_append h hs]
      dsimp only at hr ⊢
      split
      · next hc =>
        rw [if_pos hc] at hr
        obtain ⟨json, hj, hr⟩ := bind_eq_ok.1 hr
        cases hr
        exact bind_eq_ok.2 ⟨_, hj, rfl⟩
      · next hc =>
        rw [if_neg hc] at hr
        split
        · next hz =>
          rw [if_pos hz] at hr
          cases hr
        · next hz =>
          rw [if_neg hz] at hr
          cases hr
          rfl

theorem readExponent_append {exponent : Int} {v : Json} (h : Stops rest)
    (hr : readExponent negative significand exponent cs = .ok (v, more)) :
    readExponent negative significand exponent (cs ++ rest) = .ok (v, more ++ rest) := by
  cases cs with
  | nil => cases hr
  | cons c cs =>
    by_cases hp : c = '+'
    · subst hp
      exact readScale_append h hr
    by_cases hm : c = '-'
    · subst hm
      exact readScale_append h hr
    have body (cs : List Char) : readExponent negative significand exponent (c :: cs) =
        readScale negative significand exponent false (c :: cs) := by
      rw [readExponent]
      · exact fun _ e => hp (List.cons.inj e).1
      · exact fun _ e => hm (List.cons.inj e).1
    rw [body] at hr
    rw [List.cons_append, body]
    exact readScale_append h hr

theorem readPower_append {exponent : Int} {v : Json} (h : Stops rest)
    (hr : readPower negative significand exponent cs = .ok (v, more)) :
    readPower negative significand exponent (cs ++ rest) = .ok (v, more ++ rest) := by
  by_cases hh : ∀ c ∈ cs.head?, c ≠ 'e' ∧ c ≠ 'E'
  · have body {cs : List Char} (hh : ∀ c ∈ cs.head?, c ≠ 'e' ∧ c ≠ 'E') :
        readPower negative significand exponent cs =
          (do return (← scaled negative significand exponent, cs)) := by
      rw [readPower]
      · rintro _ rfl
        exact (hh 'e' rfl).1 rfl
      · rintro _ rfl
        exact (hh 'E' rfl).2 rfl
    rw [body hh] at hr
    obtain ⟨w, hw, e⟩ := bind_eq_ok.1 hr
    cases e
    rw [body, hw]
    · rfl
    · cases cs with
      | nil => exact fun c hc => (h c hc).2.2
      | cons c cs => exact hh
  · cases cs with
    | nil => exact absurd (by simp) hh
    | cons c cs =>
      have hc : c = 'e' ∨ c = 'E' := by
        refine Decidable.byContradiction fun hc => hh fun d hd => ?_
        obtain rfl : c = d := Option.some.inj hd
        exact not_or.1 hc
      rcases hc with rfl | rfl
      · exact readExponent_append h hr
      · exact readExponent_append h hr

theorem readDecimals_append {v : Json} (h : Stops rest)
    (hr : readDecimals negative significand dropped cs = .ok (v, more)) :
    readDecimals negative significand dropped (cs ++ rest) = .ok (v, more ++ rest) := by
  cases cs with
  | nil => cases hr
  | cons c cs =>
    rw [readDecimals] at hr
    rw [List.cons_append, readDecimals]
    split
    · next hd =>
      rw [if_pos hd] at hr
      cases hr
    · next hd =>
      rw [if_neg hd] at hr
      rcases hs : readDigits significand 0 0 (c :: cs) with ⟨value, taken, dropped, left⟩
      rw [hs] at hr
      rw [← List.cons_append, readDigits_append h hs]
      exact readPower_append h hr

/-- What stands behind an integer. -/
theorem readFraction_of_head (h : ∀ c ∈ cs.head?, c ≠ '.' ∧ c ≠ 'e' ∧ c ≠ 'E') :
    readFraction negative significand dropped cs =
      (do return (← whole negative significand dropped, cs)) := by
  rw [readFraction]
  · rintro _ rfl
    exact (h '.' rfl).1 rfl
  · rintro _ rfl
    exact (h 'e' rfl).2.1 rfl
  · rintro _ rfl
    exact (h 'E' rfl).2.2 rfl

theorem readFraction_of_stops (h : Stops rest) :
    readFraction negative significand dropped rest =
      (do return (← whole negative significand dropped, rest)) :=
  readFraction_of_head fun c hc => (h c hc).2

theorem readFraction_append {v : Json} (h : Stops rest)
    (hr : readFraction negative significand dropped cs = .ok (v, more)) :
    readFraction negative significand dropped (cs ++ rest) = .ok (v, more ++ rest) := by
  by_cases hh : ∀ c ∈ cs.head?, c ≠ '.' ∧ c ≠ 'e' ∧ c ≠ 'E'
  · rw [readFraction_of_head hh] at hr
    obtain ⟨w, hw, e⟩ := bind_eq_ok.1 hr
    cases e
    rw [readFraction_of_head, hw]
    · rfl
    · cases cs with
      | nil => exact fun c hc => (h c hc).2
      | cons c cs => exact hh
  · cases cs with
    | nil => exact absurd (by simp) hh
    | cons c cs =>
      have hc : c = '.' ∨ c = 'e' ∨ c = 'E' := by
        refine Decidable.byContradiction fun hc => hh fun d hd => ?_
        obtain rfl : c = d := Option.some.inj hd
        simpa only [not_or] using hc
      rcases hc with rfl | rfl | rfl
      · exact readDecimals_append h hr
      · exact readExponent_append h hr
      · exact readExponent_append h hr

/-- **What is read of a number** does not depend on what stands behind it. -/
theorem readNumber_append {v : Json} (h : Stops rest)
    (hr : readNumber negative cs = .ok (v, more)) :
    readNumber negative (cs ++ rest) = .ok (v, more ++ rest) := by
  cases cs with
  | nil => cases hr
  | cons c cs =>
    by_cases hz : c = '0'
    · subst hz
      rw [readNumber] at hr
      rw [List.cons_append, readNumber]
      have next : (cs ++ rest).head?.bind digit? = cs.head?.bind digit? := by
        cases cs with
        | cons d cs => rfl
        | nil =>
          cases rest with
          | nil => rfl
          | cons d rest => exact (h d rfl).1
      rw [next]
      cases hd : cs.head?.bind digit? with
      | some d =>
        rw [hd] at hr
        cases hr
      | none =>
        rw [hd] at hr
        exact readFraction_append h hr
    · have body (cs : List Char) : readNumber negative (c :: cs) =
          if (digit? c).isNone then .error .badNumber
          else
            readFraction negative (readDigits 0 0 0 (c :: cs)).1 (readDigits 0 0 0 (c :: cs)).2.2.1
              (readDigits 0 0 0 (c :: cs)).2.2.2 := by
        rw [readNumber]
        exact hz
      rw [body] at hr
      rw [List.cons_append, body]
      split
      · next hd =>
        rw [if_pos hd] at hr
        cases hr
      · next hd =>
        rw [if_neg hd] at hr
        rcases hs : readDigits 0 0 0 (c :: cs) with ⟨value, taken, dropped, left⟩
        rw [hs] at hr
        rw [← List.cons_append, readDigits_append h hs]
        exact readFraction_append h hr

/-! ## Integers -/

theorem head_toDigits (n : Nat) : ∃ d more, Nat.toDigits 10 n = Nat.digitChar d :: more ∧ d < 10 ∧
    (n ≠ 0 → d ≠ 0) := by
  induction n using Nat.strongRecOn with
  | ind n ih =>
    rw [Nat.toDigits_eq_if (by decide)]
    split
    · next h => exact ⟨n, [], rfl, h, id⟩
    · next h =>
      obtain ⟨d, more, e, hd, hz⟩ := ih (n / 10) (by omega)
      exact ⟨d, more ++ [(n % 10).digitChar], by rw [e]; rfl, hd, fun _ => hz (by omega)⟩

/-- **The digits of an integer** are read back to it. -/
theorem readNumber_digits {n : Nat} (hn : n ≤ maxWord) (h : Stops rest) (negative : Bool) :
    readNumber negative (Nat.toDigits 10 n ++ rest) =
      (do return (← whole negative n 0, rest)) := by
  obtain ⟨d, more, e, hd, hz⟩ := head_toDigits n
  by_cases h0 : n = 0
  · subst h0
    have next : rest.head?.bind digit? = none := by
      cases rest with
      | nil => rfl
      | cons c rest => exact (h c rfl).1
    show readNumber negative ('0' :: rest) = _
    rw [readNumber, next]
    exact readFraction_of_stops h
  · obtain ⟨taken, ht⟩ := readDigits_toDigits hn rest
    have digit := digit?_digitChar hd
    have nonzero : Nat.digitChar d ≠ '0' := by
      intro e0
      have zero : digit? '0' = some 0 := rfl
      rw [e0, zero] at digit
      exact hz h0 (Option.some.inj digit).symm
    rw [readDigits_of_stops h] at ht
    rw [e, List.cons_append] at ht ⊢
    rw [readNumber, if_neg (by simp [digit]), ht]
    · exact readFraction_of_stops h
    · exact nonzero

end FunctionApp.Json
