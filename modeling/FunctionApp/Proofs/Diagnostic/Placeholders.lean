import FunctionApp.Diagnostic.Problem
import FunctionApp.Proofs.Text.Numerals
import FunctionApp.Proofs.Text.Replace

/-!
# Placeholders

The arguments of a message are put in one after the other, and what an argument brings in is
searched for the placeholders of later ones. So a placeholder is filled with its settled argument,
the one with these filled in (`fill_placeholder`); this is the argument as it is if the arguments are
apart (`settled_of_areApart`). At once, a placeholder is filled with the argument as it is
(`replaceAll_placeholder`).
-/

namespace FunctionApp.Problem

open Text

/-! ## Placeholders -/

theorem toList_placeholder (n : Nat) :
    (placeholder n).toList = '\x7b' :: (Nat.toDigits 10 n ++ ['\x7d']) := by
  simp [placeholder, Nat.toList_repr]

theorem placeholder_ne_nil (n : Nat) : (placeholder n).toList ≠ [] := by
  simp [toList_placeholder]

theorem not_mem_toDigits {n : Nat} {c : Char} (h : c.isDigit = false) : c ∉ Nat.toDigits 10 n := by
  intro mem
  rw [Nat.isDigit_of_mem_toDigits (by decide) (by decide) mem] at h
  cases h

/-- No placeholder occurs in another one. -/
theorem eq_of_placeholder_isInfix {m n : Nat}
    (h : (placeholder m).toList <:+: (placeholder n).toList) : m = n := by
  rw [toList_placeholder n, List.infix_cons_iff] at h
  rcases h with ⟨rest, whole⟩ | within
  · rw [toList_placeholder, List.cons_append, List.append_assoc] at whole
    have digits := (List.append_cons_inj_of_notMem (not_mem_toDigits (by decide)) (by simp)).1
      (List.cons.inj whole).2.symm
    exact toDigits_injective digits.1.symm
  · have brace : '\x7b' ∈ (placeholder m).toList := by simp [toList_placeholder]
    rcases List.mem_append.1 (within.subset brace) with digit | last
    · exact absurd digit (not_mem_toDigits (by decide))
    · exact absurd last (by decide)

/-! ## Filling in turn and at once -/

/-- The placeholders from the `n`-th on, each with its argument. -/
def table (n : Nat) (arguments : List String) : List (List Char × List Char) :=
  (arguments.zipIdx n).map fun (argument, i) => ((placeholder i).toList, argument.toList)

/-- A template with all its placeholders replaced at once by the arguments, whatever these hold. -/
def atOnce (template : String) (arguments : List String) : String :=
  String.ofList (replaceAll (table 0 arguments) template.toList)

/-- The arguments from the `n`-th on, each with the placeholders of the later ones filled in. -/
def settled (n : Nat) : List String → List String
  | [] => []
  | argument :: rest => fill (n + 1) argument rest :: settled (n + 1) rest

attribute [grind =] settled

/-- No argument holds the placeholder of a later one. -/
def AreApart (arguments : List String) : Prop :=
  ∀ i j argument, i < j → arguments[i]? = some argument → j < arguments.length →
    ¬(placeholder j).toList <:+: argument.toList

theorem table_cons (n : Nat) (argument : String) (rest : List String) :
    table n (argument :: rest) =
      ((placeholder n).toList, argument.toList) :: table (n + 1) rest := by
  rw [table, List.zipIdx_cons]
  rfl

theorem exists_of_mem_table {n : Nat} {arguments : List String} {entry : List Char × List Char}
    (h : entry ∈ table n arguments) :
    ∃ i < n + arguments.length, entry.1 = (placeholder i).toList := by
  obtain ⟨⟨argument, i⟩, mem, rfl⟩ := List.mem_map.1 h
  exact ⟨i, (List.mem_zipIdx mem).2.1, rfl⟩

theorem table_ne_nil {n : Nat} {arguments : List String} :
    ∀ entry ∈ table n arguments, entry.1 ≠ [] := by
  intro entry mem
  obtain ⟨i, -, he⟩ := exists_of_mem_table mem
  rw [he]
  exact placeholder_ne_nil i

theorem toList_replace (n : Nat) (argument text : String) :
    (replace (placeholder n) argument text).toList =
      replaceChars (placeholder n).toList argument.toList text.toList :=
  String.toList_ofList

theorem replace_eq_self_iff {n : Nat} {argument text : String} :
    replace (placeholder n) argument text = text ↔
      ¬(placeholder n).toList <:+: text.toList ∨ argument = placeholder n := by
  rw [← String.toList_inj, toList_replace, replaceChars_eq_self_iff (placeholder_ne_nil n),
    String.toList_inj]

theorem replace_placeholder_self (n : Nat) (argument : String) :
    replace (placeholder n) argument (placeholder n) = argument := by
  have whole : dropWord (placeholder n).toList (placeholder n).toList = some [] := by
    simpa using dropWord_append (placeholder n).toList []
  rw [← String.toList_inj, toList_replace, replaceChars_of_dropWord (placeholder_ne_nil n) whole,
    replaceChars, List.append_nil]

theorem replace_placeholder_of_ne {m n : Nat} (h : m ≠ n) (argument : String) :
    replace (placeholder m) argument (placeholder n) = placeholder n :=
  replace_eq_self_iff.2 (.inl fun within => h (eq_of_placeholder_isInfix within))

/-- A text that holds none of the placeholders stays as it is. -/
theorem fill_of_absent {n : Nat} {text : String} {arguments : List String}
    (h : ∀ i < arguments.length, ¬(placeholder (n + i)).toList <:+: text.toList) :
    fill n text arguments = text := by
  induction arguments generalizing n with
  | nil => rfl
  | cons argument rest ih =>
    have first : ¬(placeholder n).toList <:+: text.toList := h 0 (by simp)
    rw [fill, replace_eq_self_iff.2 (.inl first)]
    apply ih
    intro i hi
    have later := h (i + 1) (by simpa using hi)
    rwa [Nat.add_right_comm]

/-- A placeholder is filled with its settled argument. -/
theorem fill_placeholder {n i : Nat} {arguments : List String} (h : i < arguments.length) :
    (settled n arguments)[i]? = some (fill n (placeholder (n + i)) arguments) := by
  induction arguments generalizing n i with
  | nil => cases h
  | cons argument rest ih =>
    rw [settled, fill]
    cases i with
    | zero =>
      rw [List.getElem?_cons_zero]
      exact congrArg (fun text => some (fill (n + 1) text rest))
        (replace_placeholder_self n argument).symm
    | succ i =>
      rw [replace_placeholder_of_ne (by omega), List.getElem?_cons_succ,
        ih (Nat.lt_of_succ_lt_succ h)]
      congr 3
      omega

theorem length_settled (n : Nat) (arguments : List String) :
    (settled n arguments).length = arguments.length := by
  induction arguments generalizing n with
  | nil => rfl
  | cons argument rest ih => rw [settled, List.length_cons, List.length_cons, ih]

theorem getElem?_settled (n i : Nat) (arguments : List String) :
    (settled n arguments)[i]? =
      arguments[i]?.map fun argument => fill (n + i + 1) argument (arguments.drop (i + 1)) := by
  induction arguments generalizing n i with
  | nil => rfl
  | cons argument rest ih =>
    rw [settled]
    cases i with
    | zero => rfl
    | succ i =>
      rw [List.getElem?_cons_succ, ih, List.getElem?_cons_succ, List.drop_succ_cons,
        Nat.add_right_comm n 1 i, Nat.add_assoc n i 1]

theorem settled_of_areApart {arguments : List String} (h : AreApart arguments) :
    settled 0 arguments = arguments := by
  apply List.ext_getElem?
  intro i
  rw [getElem?_settled]
  cases ha : arguments[i]? with
  | none => rfl
  | some argument =>
    rw [Option.map_some, fill_of_absent]
    intro k hk
    rw [List.length_drop] at hk
    exact h i _ argument (by omega) ha (by omega)

/-- At once, a placeholder is replaced by its argument. -/
theorem replaceAll_placeholder {n i : Nat} {arguments : List String} {argument : String}
    (h : arguments[i]? = some argument) :
    replaceAll (table n arguments) (placeholder (n + i)).toList = argument.toList := by
  have first : firstWord? (table n arguments) (placeholder (n + i)).toList =
      some (argument.toList, []) := by
    induction arguments generalizing n i with
    | nil => cases h
    | cons head rest ih =>
      rw [table_cons, firstWord?, List.findSome?_cons]
      cases i with
      | zero =>
        obtain rfl := Option.some.inj h
        have whole := dropWord_append (placeholder n).toList []
        rw [List.append_nil] at whole
        simp [whole]
      | succ i =>
        have other : dropWord (placeholder n).toList (placeholder (n + (i + 1))).toList = none := by
          refine dropWord_eq_none_iff.2 fun start => ?_
          have same := eq_of_placeholder_isInfix start.isInfix
          omega
        have later := ih (n := n + 1) h
        rw [Nat.add_right_comm] at later
        rw [other]
        exact later
  rw [replaceAll_of_some table_ne_nil first, replaceAll, List.append_nil]

end FunctionApp.Problem
