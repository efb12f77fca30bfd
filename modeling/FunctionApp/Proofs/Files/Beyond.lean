import FunctionApp.Proofs.Files.Directories

/-!
# What is beyond a directory

Trees that agree beyond a directory (`AgreeBeyond`) differ in nothing but the directory and what is in
it. The way to a directory is beyond it where the path has dots only before its names and the working
directory is not inside (`way_of_isStraight`), and in a well-formed tree that way is there when the
directory is.
-/

namespace FunctionApp.FileTree

variable {tree tree' tree'' : FileTree} {dir base place here : Place} {entry : FileEntry}
  {path name : String}

/-! ## Trees that agree -/

/-- The entries other than a directory and what is in it. -/
def beyond (dir : Place) (tree : FileTree) : List (Place × FileEntry) :=
  tree.entries.filter fun e => ¬dir <+: e.1

structure AgreeBeyond (dir : Place) (tree tree' : FileTree) : Prop where
  here : tree'.here = tree.here
  beyond : tree'.beyond dir = tree.beyond dir

namespace AgreeBeyond

theorem refl (dir : Place) (tree : FileTree) : AgreeBeyond dir tree tree := ⟨rfl, rfl⟩

theorem trans (h : AgreeBeyond dir tree tree') (h' : AgreeBeyond dir tree' tree'') :
    AgreeBeyond dir tree tree'' :=
  ⟨h'.here.trans h.here, h'.beyond.trans h.beyond⟩

end AgreeBeyond

theorem lookup_beyond (h : ¬dir <+: place) :
    (tree.beyond dir).lookup place = tree.entries.lookup place := by
  rw [beyond, lookup_filter_key (fun p => decide ¬dir <+: p) fun _ _ => rfl]
  simp [h]

theorem AgreeBeyond.entry? (h : AgreeBeyond dir tree tree') (hp : ¬dir <+: place) :
    tree'.entry? place = tree.entry? place := by
  unfold FileTree.entry?
  rw [← lookup_beyond hp, h.beyond, lookup_beyond hp]

/-- An entry in a directory changes nothing beyond it. -/
theorem agreeBeyond_set (h : dir <+: place) : AgreeBeyond dir tree (tree.set place entry) := by
  refine ⟨rfl, ?_⟩
  have dropped : [(place, entry)].filter (fun e => ¬dir <+: e.1) = [] := by simp [h]
  rw [beyond, set, List.filter_append, dropped, List.append_nil, List.filter_filter, beyond]
  refine List.filter_congr fun e _ => ?_
  by_cases hp : e.1 = place
  · simp [hp, h]
  · simp [hp]

theorem agreeBeyond_drop {test : Place → Bool} (h : ∀ p, test p = true → dir <+: p)
    (hh : test tree.here = false) : AgreeBeyond dir tree (tree.drop test) := by
  refine ⟨by simp [drop, hh], ?_⟩
  rw [beyond, drop, List.filter_filter, beyond]
  refine List.filter_congr fun e _ => ?_
  cases ht : test e.1 with
  | false => simp [ht]
  | true => simp [ht, h e.1 ht]

/-- Trees that are the same in a directory. -/
def AgreeInside (dir : Place) (tree tree' : FileTree) : Prop :=
  tree'.entries.filter (fun e => dir <+: e.1) = tree.entries.filter fun e => dir <+: e.1

theorem lookup_inside (h : dir <+: place) :
    (tree.entries.filter fun e => dir <+: e.1).lookup place = tree.entries.lookup place := by
  rw [lookup_filter_key (fun p => decide (dir <+: p)) fun _ _ => rfl]
  simp [h]

namespace AgreeInside

theorem entry? (h : AgreeInside dir tree tree') (hp : dir <+: place) :
    tree'.entry? place = tree.entry? place := by
  have same : tree'.entries.lookup place = tree.entries.lookup place := by
    rw [← lookup_inside hp, h, lookup_inside hp]
  unfold FileTree.entry?
  rw [same]

theorem mem_iff (h : AgreeInside dir tree tree') {e : Place × FileEntry} (hp : dir <+: e.1) :
    e ∈ tree'.entries ↔ e ∈ tree.entries := by
  have kept (t : FileTree) : e ∈ t.entries.filter (fun e => dir <+: e.1) ↔ e ∈ t.entries := by
    simp [hp]
  rw [← kept tree', ← kept tree, h]

end AgreeInside

/-- The tree with a directory and nothing in it. -/
def emptied (dir : Place) (tree : FileTree) : FileTree :=
  ⟨tree.beyond dir ++ [(dir, .directory)], tree.here⟩

theorem AgreeBeyond.emptied (h : AgreeBeyond dir tree tree') :
    tree'.emptied dir = tree.emptied dir := by
  rw [FileTree.emptied, h.beyond, h.here, FileTree.emptied]

theorem agreeBeyond_emptied (dir : Place) (tree : FileTree) :
    AgreeBeyond dir tree (tree.emptied dir) := by
  refine ⟨rfl, ?_⟩
  rw [beyond, FileTree.emptied, beyond, List.filter_append, List.filter_filter]
  simp

theorem lookup_emptied (hp : dir <+: place) :
    (tree.emptied dir).entries.lookup place = if place = dir then some .directory else none := by
  rw [emptied, List.lookup_append, beyond,
    lookup_filter_key (fun p => decide ¬dir <+: p) fun _ _ => rfl]
  by_cases he : place = dir
  · simp [he]
  · simp [hp, he, List.lookup_cons, beq_eq_false_iff_ne.2 he]

theorem entry?_emptied_self (hn : (dir = [] || isNameless dir) = false) :
    entry? (tree.emptied dir) dir = some .directory := by
  rw [entry?_of_normal hn, lookup_emptied List.prefix_rfl, if_pos rfl]

theorem entry?_emptied_inside (hn : (place = [] || isNameless place) = false) (hp : dir <+: place)
    (hne : place ≠ dir) : entry? (tree.emptied dir) place = none := by
  rw [entry?_of_normal hn, lookup_emptied hp, if_neg hne]

/-! ## Well-formed trees -/

/-- A tree in which every entry stands in a directory, and that has its working directory. -/
structure WellFormed (tree : FileTree) : Prop where
  parents : ∀ e ∈ tree.entries,
    tree.entry? e.1.dropLast = some .directory ∧ isNameless e.1.dropLast = false
  here : tree.entry? tree.here = some .directory ∧ isNameless tree.here = false

theorem isPrefix_dropLast {p : Place} (hp : p <+: place) (hne : p ≠ place) :
    p <+: place.dropLast := by
  have nonempty : place ≠ [] := by
    rintro rfl
    exact hne (List.prefix_nil.1 hp)
  rw [← List.dropLast_concat_getLast nonempty] at hp hne
  exact (List.prefix_concat_iff.1 hp).resolve_left hne

namespace WellFormed

/-- A directory of a well-formed tree lies in a directory. -/
theorem parent (h : tree.WellFormed) (hd : tree.entry? place ≠ none)
    (hn : isNameless place = false) :
    tree.entry? place.dropLast = some .directory ∧ isNameless place.dropLast = false := by
  by_cases hp : place = []
  · subst hp
    exact ⟨rfl, rfl⟩
  · rw [entry?_of_normal (by simp [hp, hn])] at hd
    obtain ⟨e, he⟩ := Option.ne_none_iff_exists'.1 hd
    obtain ⟨before, after, hs, _⟩ := List.lookup_eq_some_iff.1 he
    exact h.parents (place, e) (by simp [hs])

/-- Everything above an entry of a well-formed tree is a directory. -/
theorem above (h : tree.WellFormed) {p : Place} : ∀ {place : Place}, tree.entry? place ≠ none →
    isNameless place = false → p <+: place → p ≠ place → tree.entry? p = some .directory := by
  intro place
  generalize hl : place.length = length
  induction length generalizing place with
  | zero =>
    intro _ _ hp hne
    rw [List.eq_nil_of_length_eq_zero hl, List.prefix_nil] at hp
    exact absurd (hp.trans (List.eq_nil_of_length_eq_zero hl).symm) hne
  | succ length ih =>
    intro hd hn hp hne
    obtain ⟨up, named⟩ := h.parent hd hn
    have hp := isPrefix_dropLast hp hne
    by_cases he : p = place.dropLast
    · exact he ▸ up
    · exact ih (by simp [hl]) (by simp [up]) named hp he

end WellFormed

/-! ## The way to a directory -/

/-- A path of names that may have dots before them, but none behind. -/
def IsStraight (path : String) : Prop :=
  ∃ dots plain, names (withoutSlash path) = dots ++ plain ∧ plain ≠ [] ∧
    (∀ d ∈ dots, d = "." ∨ d = "..") ∧ ∀ n ∈ plain, IsPlain n

/-- The place that a path leads to if everything on the way is there. -/
def goal (tree : FileTree) (path : String) : Except FileFault Place :=
  enterAll (tree.origin path) (moves path)

/-- The way that a path takes to a directory, which does not go through the directory itself. -/
structure Way (tree : FileTree) (path : String) (before : List String) (base : Place)
    (name : String) : Prop where
  names : names (withoutSlash path) = before ++ [name]
  plain : IsPlain name
  leads : enterAll (tree.origin path) before = .ok base
  enters : enter base name = .ok (base ++ [name])
  apart : ∀ ns p, ns <+: before → enterAll (tree.origin path) ns = .ok p → ¬base ++ [name] <+: p

theorem enter_dots {name : String} (hd : name = "." ∨ name = "..") :
    ∃ next, enter here name = .ok next ∧ next <+: here := by
  rcases hd with rfl | rfl
  · exact ⟨here, enter_dot here, List.prefix_rfl⟩
  · exact ⟨here.dropLast, by rw [enter, if_neg (by decide), if_pos rfl], List.dropLast_prefix here⟩

/-- Dots lead up. -/
theorem enterAll_dots {dots : List String} (hd : ∀ d ∈ dots, d = "." ∨ d = "..")
    (h : enterAll here dots = .ok place) : place <+: here := by
  induction dots generalizing here with
  | nil =>
    cases h
    exact List.prefix_rfl
  | cons d dots ih =>
    obtain ⟨next, hn, hw⟩ := enterAll_cons.1 h
    obtain ⟨next', hn', hp⟩ := enter_dots (hd d (.head _))
    obtain rfl : next = next' := Except.ok.inj (hn.symm.trans hn')
    exact (ih (fun d h => hd d (.tail _ h)) hw).trans hp

/-- Names lead down. -/
theorem enterAll_plain {plain : List String} (hp : ∀ n ∈ plain, IsPlain n)
    (h : enterAll here plain = .ok place) : place = here ++ plain := by
  induction plain generalizing here with
  | nil =>
    cases h
    exact (List.append_nil _).symm
  | cons n plain ih =>
    obtain ⟨next, hn, hw⟩ := enterAll_cons.1 h
    obtain ⟨_, _, rfl⟩ := (enter_eq_ok (hp n (.head _))).1 hn
    rw [ih (fun n h => hp n (.tail _ h)) hw, List.append_assoc]
    rfl

/-- The places on a straight way are above where it starts or above where it leads. -/
theorem above_of_dots_plain {dots plain ns : List String} {p : Place}
    (hd : ∀ d ∈ dots, d = "." ∨ d = "..") (hp : ∀ n ∈ plain, IsPlain n)
    (h : enterAll here (dots ++ plain) = .ok place) (hn : ns <+: dots ++ plain)
    (hq : enterAll here ns = .ok p) : p <+: here ∨ p <+: place := by
  obtain ⟨top, ht, hw⟩ := enterAll_append.1 h
  obtain rfl := enterAll_plain hp hw
  rcases List.prefix_or_prefix_of_prefix hn (List.prefix_append dots plain) with hn' | ⟨more, rfl⟩
  · exact .inl (enterAll_dots (fun d h => hd d (hn'.mem h)) hq)
  · have hm := (List.prefix_append_right_inj dots).1 hn
    obtain ⟨top', ht', hq⟩ := enterAll_append.1 hq
    obtain rfl : top = top' := Except.ok.inj (ht.symm.trans ht')
    obtain rfl := enterAll_plain (fun n h => hp n (hm.mem h)) hq
    exact .inr ((List.prefix_append_right_inj top).2 hm)

theorem origin_cases (tree : FileTree) (path : String) :
    tree.origin path = [] ∨ tree.origin path = tree.here := by
  unfold origin
  split
  · exact .inl rfl
  · exact .inr rfl

/-- Above where a path starts are directories. -/
theorem WellFormed.above_origin (h : tree.WellFormed) {p : Place} (hp : p <+: tree.origin path) :
    tree.entry? p = some .directory := by
  rcases origin_cases tree path with e | e
  · rw [e, List.prefix_nil] at hp
    exact hp ▸ rfl
  · rw [e] at hp
    by_cases he : p = tree.here
    · exact he ▸ h.here.1
    · exact h.above (by simp [h.here.1]) h.here.2 hp he

theorem not_concat_isPrefix (base : Place) (name : String) : ¬base ++ [name] <+: base := by
  intro h
  have := h.length_le
  rw [List.length_append, List.length_singleton] at this
  omega

theorem not_isNameless_concat (hp : IsPlain name) (base : Place) : isNameless (base ++ [name]) = false := by
  simp [isNameless, hp.1]

/-- **The way of a straight path to a directory** is beyond the directory, if the working directory
is not inside. It is there when the directory is. -/
theorem way_of_isStraight (hs : IsStraight path) (hg : tree.goal path = .ok dir)
    (hh : ¬dir <+: tree.here) :
    ∃ before base name, dir = base ++ [name] ∧ Way tree path before base name ∧
      (tree.WellFormed → tree.entry? dir ≠ none →
        tree.walk (tree.origin path) before = .ok base ∧ tree.entry? base = some .directory) := by
  obtain ⟨dots, plain, hn, hne, hd, hp⟩ := hs
  have last := List.dropLast_concat_getLast hne
  generalize plain.dropLast = front at last
  generalize plain.getLast hne = name at last
  subst last
  have hname : IsPlain name := hp name (by simp)
  have hfront : ∀ n ∈ front, IsPlain n := fun n h => hp n (by simp [h])
  rw [← List.append_assoc] at hn
  rw [goal, ← moves_withoutSlash, ← enterAll_names, hn] at hg
  obtain ⟨base, hb, hg⟩ := enterAll_append.1 hg
  obtain ⟨next, he, hg⟩ := enterAll_cons.1 hg
  cases hg
  obtain ⟨_, _, rfl⟩ := (enter_eq_ok hname).1 he
  have above {ns : List String} {p : Place} (hn : ns <+: dots ++ front)
      (hq : enterAll (tree.origin path) ns = .ok p) : p <+: tree.origin path ∨ p <+: base :=
    above_of_dots_plain hd hfront hb hn hq
  refine ⟨dots ++ front, base, name, rfl, ⟨hn, hname, hb, he, fun ns p hn hq inside => ?_⟩,
    fun wf present => ?_⟩
  · rcases above hn hq with hp | hp
    · rcases origin_cases tree path with e | e
      · rw [e] at hp
        simpa using (inside.trans hp).length_le
      · exact hh (inside.trans (e ▸ hp))
    · exact not_concat_isPrefix base name (inside.trans hp)
  · have directory {p : Place} (hp : p <+: tree.origin path ∨ p <+: base) :
        tree.entry? p = some .directory := by
      rcases hp with hp | hp
      · exact wf.above_origin hp
      · refine wf.above present (not_isNameless_concat hname base) (hp.trans (List.prefix_append _ _)) ?_
        rintro rfl
        exact not_concat_isPrefix base name hp
    exact ⟨walk_of_way (fun ns p hn _ hq => directory (above hn hq)) hb,
      directory (.inr List.prefix_rfl)⟩

/-- The directory that a path is for is found by the path, if it is there. -/
def Finds (tree : FileTree) (path : String) (dir : Place) : Prop :=
  tree.entry? dir ≠ none → tree.walk (tree.origin path) (names (withoutSlash path)) = .ok dir

theorem Finds.present {before : List String} (h : tree.Finds path (base ++ [name]))
    (w : Way tree path before base name) (there : tree.entry? (base ++ [name]) ≠ none) :
    tree.walk (tree.origin path) before = .ok base ∧ tree.entry? base = some .directory := by
  have walked := h there
  rw [w.names] at walked
  obtain ⟨p, hw, directory, entered⟩ := walk_concat.1 walked
  obtain rfl : base = p := Except.ok.inj (w.leads.symm.trans (enterAll_of_walk hw))
  exact ⟨hw, directory⟩

end FunctionApp.FileTree
