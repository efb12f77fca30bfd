import FunctionApp.Files.Tree
import FunctionApp.Proofs.Results

/-!
# Where paths lead

A walk depends on the tree only in that everything before its last name must be a directory
(`walk_of_directories`); where it leads is settled by the names alone (`enterAll_of_walk`), also from
a working directory that was removed (`enterAll_from_nameless`).
-/

namespace FunctionApp.FileTree

variable {tree tree' : FileTree} {place here : Place} {entry : FileEntry}

/-! ## Entries -/

theorem entry?_of_normal (hn : (place = [] || isNameless place) = false) :
    tree.entry? place = tree.entries.lookup place := by
  unfold entry?
  rw [hn]
  rfl

theorem entry?_of_not_normal (hn : (place = [] || isNameless place) = true) :
    tree.entry? place = some .directory := by
  unfold entry?
  rw [hn]
  rfl

theorem lookup_filter_key {keep : Place × FileEntry → Bool} (test : Place → Bool)
    (hk : ∀ p e, keep (p, e) = test p) (entries : List (Place × FileEntry)) :
    (entries.filter keep).lookup place = if test place then entries.lookup place else none := by
  induction entries with
  | nil => simp
  | cons e entries ih =>
    obtain ⟨p, e⟩ := e
    by_cases hp : place = p
    · subst hp
      cases ht : test place <;> simp [hk, ht, ih]
    · have hb : (place == p) = false := by simpa using hp
      cases ht : test p <;> simp [List.lookup_cons, hk, ht, hb, ih]

theorem entry?_set_of_ne {other : Place} (h : other ≠ place) :
    entry? (tree.set place entry) other = tree.entry? other := by
  cases hn : (other = [] || isNameless other : Bool) with
  | true => rw [entry?_of_not_normal hn, entry?_of_not_normal hn]
  | false =>
    rw [entry?_of_normal hn, entry?_of_normal hn, set, List.lookup_append,
      lookup_filter_key (fun p => decide (p ≠ place)) fun _ _ => rfl]
    simp [h, List.lookup_cons, beq_eq_false_iff_ne.2 h]

theorem entry?_set_self (hn : (place = [] || isNameless place) = false) :
    entry? (tree.set place entry) place = some entry := by
  rw [entry?_of_normal hn, set, List.lookup_append,
    lookup_filter_key (fun p => decide (p ≠ place)) fun _ _ => rfl]
  simp

theorem entry?_set (tree : FileTree) (place other : Place) (entry : FileEntry) :
    entry? (tree.set place entry) other =
      if other = place ∧ (place = [] || isNameless place) = false then some entry
      else tree.entry? other := by
  by_cases h : other = place
  · subst h
    cases hn : (other = [] || isNameless other : Bool) with
    | true => rw [entry?_of_not_normal hn, if_neg (by simp), entry?_of_not_normal hn]
    | false => rw [entry?_set_self hn, if_pos ⟨rfl, rfl⟩]
  · rw [entry?_set_of_ne h, if_neg (fun hc => h hc.1)]

theorem entry?_drop (test : Place → Bool) (hn : (place = [] || isNameless place) = false) :
    entry? (tree.drop test) place = if test place then none else tree.entry? place := by
  rw [entry?_of_normal hn, entry?_of_normal hn, drop,
    lookup_filter_key (fun p => !test p) fun _ _ => rfl]
  cases test place <;> rfl

/-! ## Walks -/

theorem walk_cons {name : String} {names : List String} :
    tree.walk here (name :: names) = .ok place ↔
      tree.entry? here = some .directory ∧
        ∃ next, enter here name = .ok next ∧ tree.walk next names = .ok place := by
  rw [walk]
  cases tree.entry? here with
  | none => simp
  | some e =>
    cases e with
    | file bytes => simp
    | directory => cases enter here name <;> simp

theorem walk_concat {name : String} {names : List String} :
    tree.walk here (names ++ [name]) = .ok place ↔
      ∃ dir, tree.walk here names = .ok dir ∧ tree.entry? dir = some .directory ∧
        enter dir name = .ok place := by
  induction names generalizing here with
  | nil =>
    rw [List.nil_append, walk_cons]
    simp [walk]
  | cons first names ih =>
    rw [List.cons_append, walk_cons]
    constructor
    · rintro ⟨hd, next, hn, hw⟩
      obtain ⟨dir, hw, he, hp⟩ := ih.1 hw
      exact ⟨dir, walk_cons.2 ⟨hd, next, hn, hw⟩, he, hp⟩
    · rintro ⟨dir, hw, he, hp⟩
      obtain ⟨hd, next, hn, hw⟩ := walk_cons.1 hw
      exact ⟨hd, next, hn, ih.2 ⟨dir, hw, he, hp⟩⟩

/-- Where every directory is still one, a walk leads to the same place. -/
theorem walk_of_directories
    (h : ∀ p, tree.entry? p = some .directory → tree'.entry? p = some .directory)
    {names : List String} (hw : tree.walk here names = .ok place) :
    tree'.walk here names = .ok place := by
  induction names generalizing here with
  | nil => exact hw
  | cons name names ih =>
    obtain ⟨hd, next, hn, hw⟩ := walk_cons.1 hw
    exact walk_cons.2 ⟨h _ hd, next, hn, ih hw⟩

/-- The place that names lead to if everything before the last of them is a directory. -/
def enterAll (here : Place) (names : List String) : Except FileFault Place := names.foldlM enter here

theorem enterAll_cons {name : String} {names : List String} :
    enterAll here (name :: names) = .ok place ↔
      ∃ next, enter here name = .ok next ∧ enterAll next names = .ok place :=
  bind_eq_ok

theorem enterAll_append {names more : List String} :
    enterAll here (names ++ more) = .ok place ↔
      ∃ p, enterAll here names = .ok p ∧ enterAll p more = .ok place := by
  rw [enterAll, List.foldlM_append]
  exact bind_eq_ok

/-- Where a walk leads does not depend on the tree. -/
theorem enterAll_of_walk {names : List String} (h : tree.walk here names = .ok place) :
    enterAll here names = .ok place := by
  induction names generalizing here with
  | nil => exact h
  | cons name names ih =>
    obtain ⟨_, next, hn, hw⟩ := walk_cons.1 h
    exact enterAll_cons.2 ⟨next, hn, ih hw⟩

theorem resolve_eq_ok {path : String} {names : List String} :
    tree.resolve path names = .ok place ↔
      pathFault? path = none ∧ tree.walk (tree.origin path) names = .ok place := by
  unfold resolve
  cases pathFault? path <;> simp

/-- A name of an entry, which leads further into a directory. -/
def IsPlain (name : String) : Prop :=
  name ≠ "" ∧ name ≠ "." ∧ name ≠ ".." ∧ '/' ∉ name.toList

/-- A part of a path, which stands between its slashes. -/
def IsSegment (name : String) : Prop := name ≠ "" ∧ '/' ∉ name.toList

theorem IsPlain.isSegment {name : String} (h : IsPlain name) : IsSegment name := ⟨h.1, h.2.2.2⟩

theorem enter_eq_ok {name : String} (hp : IsPlain name) {next : Place} :
    enter here name = .ok next ↔
      isNameless here = false ∧ name.utf8ByteSize ≤ 255 ∧ next = here ++ [name] := by
  obtain ⟨_, hdot, hdots, _⟩ := hp
  rw [enter, if_neg hdot, if_neg hdots]
  cases isNameless here with
  | true => simp
  | false =>
    by_cases hl : 255 < name.utf8ByteSize
    · simp [hl, Nat.not_le.2 hl]
    · simp [hl, Nat.le_of_not_lt hl, eq_comm]

/-- What is entered in a directory is entered by its name. -/
theorem eq_of_enter_concat {name other : String} (h : enter here name = .ok (here ++ [other])) :
    name = other := by
  have longer : here ++ [other] ≠ here := by simp
  have longer' : here ++ [other] ≠ here.dropLast := fun e => by
    have lengths := congrArg List.length e
    rw [List.length_append, List.length_dropLast, List.length_singleton] at lengths
    omega
  unfold enter at h
  split at h
  · exact absurd (Except.ok.inj h).symm longer
  split at h
  · exact absurd (Except.ok.inj h).symm longer'
  split at h
  · cases h
  split at h
  · cases h
  · simpa using h

/-- A walk is settled by what is on its way: the entries of the places before its last one. -/
theorem walk_congr {names : List String}
    (h : ∀ before p, before <+: names → before ≠ names → enterAll here before = .ok p →
      tree'.entry? p = tree.entry? p) :
    tree'.walk here names = tree.walk here names := by
  induction names generalizing here with
  | nil => rfl
  | cons name names ih =>
    rw [walk, walk, h [] here (List.nil_prefix) (by simp) rfl]
    cases tree.entry? here with
    | none => rfl
    | some e =>
      cases e with
      | file bytes => rfl
      | directory =>
        cases hn : enter here name with
        | error fault => rfl
        | ok next =>
          refine ih fun before p hb hne hp => h (name :: before) p ?_ (by simpa using hne) ?_
          · exact (List.prefix_cons_inj name).2 hb
          · exact enterAll_cons.2 ⟨next, hn, hp⟩

/-- Names lead through directories to where they lead. -/
theorem walk_of_way {names : List String}
    (h : ∀ before p, before <+: names → before ≠ names → enterAll here before = .ok p →
      tree.entry? p = some .directory)
    (hp : enterAll here names = .ok place) : tree.walk here names = .ok place := by
  induction names generalizing here with
  | nil => exact hp
  | cons name names ih =>
    obtain ⟨next, hn, hw⟩ := enterAll_cons.1 hp
    refine walk_cons.2 ⟨h [] here List.nil_prefix (by simp) rfl, next, hn, ih ?_ hw⟩
    intro before p hb hne hp
    refine h (name :: before) p ((List.prefix_cons_inj name).2 hb) (by simpa using hne) ?_
    exact enterAll_cons.2 ⟨next, hn, hp⟩

theorem directory_of_walk {names before : List String} {p : Place}
    (h : tree.walk here names = .ok place) (hb : before <+: names) (hne : before ≠ names)
    (hp : enterAll here before = .ok p) : tree.entry? p = some .directory := by
  induction before generalizing here names with
  | nil =>
    cases hp
    cases names with
    | nil => exact absurd rfl hne
    | cons name names => exact (walk_cons.1 h).1
  | cons name before ih =>
    obtain ⟨rest, rfl⟩ := hb
    obtain ⟨next, hn, hp⟩ := enterAll_cons.1 hp
    obtain ⟨_, next', hn', hw⟩ := walk_cons.1 h
    obtain rfl : next = next' := Except.ok.inj (hn.symm.trans hn')
    exact ih hw (List.prefix_append _ _) (by simpa using hne) hp

/-- From a directory that was removed, names lead nowhere or where they led before. -/
theorem enterAll_from_nameless {name : String} (hp : IsPlain name) {names : List String}
    (h : enterAll (here.dropLast ++ [""]) (names ++ [name]) = .ok place) :
    enterAll here (names ++ [name]) = .ok place := by
  have nameless : isNameless (here.dropLast ++ [""]) = true := by simp [isNameless]
  induction names with
  | nil =>
    obtain ⟨next, hn, _⟩ := enterAll_cons.1 h
    rw [((enter_eq_ok hp).1 hn).1] at nameless
    cases nameless
  | cons first names ih =>
    obtain ⟨next, hn, hw⟩ := enterAll_cons.1 h
    refine enterAll_cons.2 ?_
    unfold enter at hn ⊢
    split at hn
    · next hdot =>
      cases hn
      exact ⟨here, if_pos hdot, ih hw⟩
    · next hdot =>
      split at hn
      · next hdots =>
        cases hn
        rw [List.dropLast_concat] at hw
        exact ⟨here.dropLast, by rw [if_neg hdot, if_pos hdots], hw⟩
      · cases hn

end FunctionApp.FileTree
