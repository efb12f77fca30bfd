import FunctionApp.Handler.Route
import FunctionApp.Proofs.Diagnostic.Placeholders
import FunctionApp.Proofs.Text.Holes

/-!
# Messages

A message is its template with the arguments put in, one after the other. The placeholders of a
template are holes in it, and no other character of it can be part of a placeholder. So the message
is the template with all placeholders replaced at once, but by the settled arguments
(`message_filled_in_turn`): it shows the arguments as they are if none holds the placeholder of a
later one, and of two arguments only then.
-/

namespace FunctionApp.Problem

open Text

/-! ## Templates in chunks -/

/-- The chunks of a template. Placeholders of more than one digit are none. -/
def chunks : List Char → List Chunk
  | [] => []
  | '\x7b' :: d :: '\x7d' :: rest =>
    if d.isDigit then .hole (d.toNat - '0'.toNat) :: chunks rest
    else .char '\x7b' :: chunks (d :: '\x7d' :: rest)
  | c :: rest => .char c :: chunks rest

/-- The characters of the first `n` placeholders, if these have one digit. -/
def reserved (n : Nat) : List Char := '\x7b' :: '\x7d' :: (List.range n).map Nat.digitChar

theorem toList_placeholder_of_isDigit {d : Char} (h : d.isDigit) :
    (placeholder (d.toNat - '0'.toNat)).toList = ['\x7b', d, '\x7d'] := by
  obtain ⟨small, digit⟩ := digitChar_of_isDigit h
  rw [toList_placeholder, Nat.toDigits_of_lt_base small, digit]
  rfl

theorem render_chunks (cs : List Char) : render placeholder (chunks cs) = cs := by
  induction cs using chunks.induct with
  | case1 => rfl
  | case2 d rest digit ih =>
    rw [chunks, if_pos digit, render, List.flatMap_cons, Chunk.text,
      toList_placeholder_of_isDigit digit]
    exact congrArg _ ih
  | case3 d rest other ih =>
    rw [chunks, if_neg other]
    exact congrArg _ ih
  | case4 c rest other ih =>
    rw [chunks]
    · exact congrArg _ ih
    · exact other

theorem mem_reserved {i n : Nat} (h : i < n) (small : n ≤ 10) :
    ∀ c ∈ (placeholder i).toList, c ∈ reserved n := by
  intro c mem
  rw [toList_placeholder, Nat.toDigits_of_lt_base (by omega)] at mem
  have digit : Nat.digitChar i ∈ (List.range n).map Nat.digitChar :=
    List.mem_map_of_mem (List.mem_range.2 h)
  rcases List.mem_cons.1 mem with rfl | mem
  · exact List.mem_cons_self
  · rcases List.mem_append.1 mem with mem | mem
    · rw [List.mem_singleton.1 mem]
      exact List.mem_cons_of_mem _ (List.mem_cons_of_mem _ digit)
    · rw [List.mem_singleton.1 mem]
      exact List.mem_cons_of_mem _ List.mem_cons_self

/-! ## Filling chunks -/

section Filling

variable {parts : List Chunk}

theorem replace_render {n bound : Nat} (small : bound ≤ 10) (h : n < bound)
    (spaced : isSpaced (reserved bound) parts = true) (argument : String) (put : Nat → String) :
    replace (placeholder n) argument (String.ofList (render put parts)) =
      String.ofList (render (fun i => replace (placeholder n) argument (put i)) parts) := by
  have words : ∀ entry ∈ [((placeholder n).toList, argument.toList)], entry.1 ≠ [] := by
    simpa using placeholder_ne_nil n
  have within : ∀ entry ∈ [((placeholder n).toList, argument.toList)],
      ∀ c ∈ entry.1, c ∈ reserved bound := by
    simpa using mem_reserved h small
  rw [← String.toList_inj, toList_replace, replaceChars_eq, String.toList_ofList,
    String.toList_ofList, replaceAll_render words within spaced]
  congr 1
  funext i
  rw [replace, replaceChars_eq]

/-- Filling a spaced template fills each of its holes alone. -/
theorem fill_render {n : Nat} {arguments : List String} {bound : Nat} (small : bound ≤ 10)
    (h : n + arguments.length ≤ bound) (spaced : isSpaced (reserved bound) parts = true)
    (put : Nat → String) :
    fill n (String.ofList (render put parts)) arguments =
      String.ofList (render (fun i => fill n (put i) arguments) parts) := by
  induction arguments generalizing n put with
  | nil => rfl
  | cons argument rest ih =>
    rw [List.length_cons] at h
    rw [fill, replace_render small (by omega) spaced, ih (by omega)]
    rfl

theorem atOnce_render {arguments : List String} (small : arguments.length ≤ 10)
    (spaced : isSpaced (reserved arguments.length) parts = true)
    (filled : ∀ i ∈ parts.filterMap Chunk.hole?, arguments[i]? = some (put i)) :
    atOnce (String.ofList (render placeholder parts)) arguments =
      String.ofList (render put parts) := by
  have within : ∀ entry ∈ table 0 arguments,
      ∀ c ∈ entry.1, c ∈ reserved arguments.length := by
    intro entry mem c here
    obtain ⟨i, hi, he⟩ := exists_of_mem_table mem
    rw [he] at here
    exact mem_reserved (by omega) small c here
  rw [atOnce, String.toList_ofList, replaceAll_render table_ne_nil within spaced]
  apply congrArg String.ofList
  apply render_congr
  intro i mem
  have here := replaceAll_placeholder (n := 0) (filled i mem)
  rw [Nat.zero_add] at here
  rw [here, String.ofList_toList]

end Filling

/-! ## Messages -/

/-- Every template is spaced, and has the placeholder of each argument once. -/
theorem exists_template_eq_render (problem : Problem) :
    ∃ parts, problem.template = String.ofList (render placeholder parts) ∧
      isSpaced (reserved problem.arguments.length) parts = true ∧
      (parts.filterMap Chunk.hole?).Perm (List.range problem.arguments.length) := by
  suffices ∃ cs, problem.template = String.ofList cs ∧
      isSpaced (reserved problem.arguments.length) (chunks cs) = true ∧
      ((chunks cs).filterMap Chunk.hole?).Perm (List.range problem.arguments.length) by
    obtain ⟨cs, whole, spaced, holes⟩ := this
    refine ⟨chunks cs, ?_, spaced, holes⟩
    rw [render_chunks, whole]
  cases problem <;> dsimp only [template, arguments, List.length]
  case functionName name =>
    exact ⟨_, String.ofList_append.symm, by decide +kernel, by decide +kernel⟩
  all_goals exact ⟨_, rfl, by decide +kernel, by decide +kernel⟩

example :
    (chunks (duplicatePathParam "orders" "id").template.toList).filterMap Chunk.hole? = [0, 1] := by
  decide +kernel

theorem length_arguments_le (problem : Problem) : problem.arguments.length ≤ 4 := by
  cases problem <;> simp [arguments]

theorem message_eq_atOnce_settled (problem : Problem) :
    problem.message = atOnce problem.template (settled 0 problem.arguments) := by
  obtain ⟨parts, whole, spaced, holes⟩ := exists_template_eq_render problem
  have few := length_arguments_le problem
  have long := length_settled 0 problem.arguments
  rw [message, whole, fill_render (by omega) (by omega) spaced, atOnce_render (by omega)]
  · rwa [long]
  · intro i mem
    have hi := List.mem_range.1 (holes.subset mem)
    have here := fill_placeholder (n := 0) hi
    rwa [Nat.zero_add] at here

/-- Where the arguments differ at one place at most, the texts tell whether they differ. -/
theorem atOnce_template_eq_iff (problem : Problem) {xs ys : List String}
    (hx : xs.length = problem.arguments.length) (hy : ys.length = problem.arguments.length)
    {i : Nat} (hi : i < problem.arguments.length) (others : ∀ j ≠ i, xs[j]? = ys[j]?) :
    atOnce problem.template xs = atOnce problem.template ys ↔ xs = ys := by
  obtain ⟨parts, whole, spaced, holes⟩ := exists_template_eq_render problem
  have few := length_arguments_le problem
  have filled (zs : List String) (hz : zs.length = problem.arguments.length) :
      atOnce problem.template zs = String.ofList (render (fun i => zs[i]?.getD "") parts) := by
    rw [whole]
    apply atOnce_render (by omega) (by rwa [hz])
    intro j mem
    have hj := List.mem_range.1 (holes.subset mem)
    rw [List.getElem?_eq_getElem (by omega), Option.getD_some]
  have once : (parts.filterMap Chunk.hole?).count i = 1 := by
    rw [holes.count_eq]
    exact List.count_eq_one_of_mem List.nodup_range (List.mem_range.2 hi)
  rw [filled xs hx, filled ys hy, String.ofList_inj, render_eq_iff once]
  · constructor
    · intro same
      apply List.ext_getElem?
      intro j
      by_cases hj : j = i
      · subst hj
        rw [List.getElem?_eq_getElem (by omega), List.getElem?_eq_getElem (by omega)] at same ⊢
        exact congrArg some same
      · exact others j hj
    · intro same
      rw [same]
  · intro j hj
    exact congrArg (·.getD "") (others j hj)

/-- With two arguments it is settled whether the message shows them as they are. -/
theorem message_eq_atOnce_iff {problem : Problem} {first second : String}
    (two : problem.arguments = [first, second]) :
    problem.message = atOnce problem.template [first, second] ↔
      ¬(placeholder 1).toList <:+: first.toList ∨ second = placeholder 1 := by
  have both : settled 0 [first, second] = [replace (placeholder 1) second first, second] := rfl
  have long : [first, second].length = problem.arguments.length := by rw [two]
  have settledLong : (settled 0 [first, second]).length = problem.arguments.length := long
  have later : ∀ j ≠ 0, (settled 0 [first, second])[j]? = [first, second][j]? := by
    intro j hj
    cases j with
    | zero => exact absurd rfl hj
    | succ j => rfl
  rw [message_eq_atOnce_settled, two,
    atOnce_template_eq_iff problem settledLong long (i := 0) (by simp [← long]) later, both,
    List.cons_eq_cons, replace_eq_self_iff]
  exact and_iff_left rfl

/-- **Messages are filled in turn.** The message of a problem is its template with all placeholders
replaced at once by the settled arguments, those with the placeholders of later ones filled in. It
shows the arguments as they are if none holds the placeholder of a later one; with two arguments,
only if the first does not hold the second placeholder or the second argument is that placeholder.
-/
theorem message_filled_in_turn (problem : Problem) :
    problem.message = atOnce problem.template (settled 0 problem.arguments) ∧
      (AreApart problem.arguments →
        problem.message = atOnce problem.template problem.arguments) ∧
      ∀ first second, problem.arguments = [first, second] →
        (problem.message = atOnce problem.template [first, second] ↔
          ¬(placeholder 1).toList <:+: first.toList ∨ second = placeholder 1) := by
  refine ⟨message_eq_atOnce_settled problem, fun apart => ?_, fun first second two => ?_⟩
  · rw [message_eq_atOnce_settled, settled_of_areApart apart]
  · exact message_eq_atOnce_iff two

theorem message_filled_in_turn_orders :
    AreApart ["orders/\x7bid\x7d/\x7bid\x7d", "id"] ∧
      (duplicatePathParam "orders/\x7bid\x7d/\x7bid\x7d" "id").message =
        atOnce "route '\x7b0\x7d' contains placeholder '\x7b1\x7d' more than once"
          ["orders/\x7bid\x7d/\x7bid\x7d", "id"] ∧
      (paramShape "x\x7b1\x7d" "\x7b1\x7d").message =
        atOnce (paramShape "x\x7b1\x7d" "\x7b1\x7d").template ["x\x7b1\x7d", "\x7b1\x7d"] := by
  have apart : AreApart ["orders/\x7bid\x7d/\x7bid\x7d", "id"] := by
    intro i j argument before at_ within
    rw [List.length_cons, List.length_singleton] at within
    obtain rfl : j = 1 := by omega
    obtain rfl : i = 0 := by omega
    obtain rfl := Option.some.inj at_
    decide +kernel
  refine ⟨apart, (message_filled_in_turn (duplicatePathParam _ _)).2.1 apart, ?_⟩
  exact ((message_filled_in_turn (paramShape _ _)).2.2 _ _ rfl).2 (.inr (by decide +kernel))

/-- The position of a parameter without a name stands in the route, which an argument is: the token
that is told to be there more than once is put into the route as well. -/
theorem message_not_at_once :
    let problem := duplicatePathParam "orders/\x7b1\x7d/\x7b*tail\x7d/\x7b*tail\x7d" "tail"
    Route.check (.build ["orders"] [.param none (.builtin .string),
        .rest "tail" (.builtin .string), .rest "tail" (.builtin .string)]) = .error problem ∧
      problem.message = "route 'orders/tail/\x7b*tail\x7d/\x7b*tail\x7d' contains placeholder " ++
        "'tail' more than once" ∧
      atOnce problem.template problem.arguments = "route 'orders/\x7b1\x7d/\x7b*tail\x7d/" ++
        "\x7b*tail\x7d' contains placeholder 'tail' more than once" ∧
      problem.message ≠ atOnce problem.template problem.arguments := by
  refine ⟨?_, ?_, ?_, ?_⟩ <;> decide +kernel

end FunctionApp.Problem
