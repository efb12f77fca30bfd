import FunctionApp.Build.Run
import FunctionApp.Proofs.Files.Directories
import FunctionApp.Proofs.Files.Text
import FunctionApp.Proofs.Package.Clearing

/-!
# The files that are loaded

The configuration of a directory is the file of its name there (`run_load_of_readText`). A program
is looked for by its name in the parent of its path. The parent of a joined path is written without
the dots and the slashes at the end of the directory, and leads to it all the same
(`locate_join_parent`), so that the program is the file at its path (`Program.run_load`).
-/

namespace FunctionApp

namespace FileTree

open FunctionApp.Path

variable {tree : FileTree} {base name text : String} {place : Place}

/-- A path that loses a part of its text stays one. -/
theorem pathFault?_of_lost {front lost back : String} (hne : front ++ back ≠ "")
    (h : pathFault? (front ++ (lost ++ back)) = none) : pathFault? (front ++ back) = none := by
  unfold pathFault? at h ⊢
  split at h
  · cases h
  · next hz =>
    split at h
    · cases h
    · split at h
      · cases h
      · next hl =>
        have zero : (front ++ back).toList.contains '\x00' ≠ true := by
          simp only [String.toList_append, List.contains_eq_mem, decide_eq_true_eq,
            List.mem_append, ne_eq] at hz ⊢
          exact fun hc => hz (hc.imp_right .inr)
        simp only [String.utf8ByteSize_append] at hl ⊢
        rw [if_neg zero, if_neg hne, if_neg (by omega)]

theorem reverseParts_join (hp : IsPlain name) {parts : List String}
    (h : Text.splitOnChar '/' (join base name) = parts ++ [name]) :
    reverseParts (join base name) = name :: parts.reverse :=
  reverseParts_of_parts h hp.1 fun e => absurd e hp.2.1

theorem fileName?_join (hp : IsPlain name) (base : String) :
    fileName? (join base name) = some name := by
  obtain ⟨parts, h⟩ := exists_splitOnChar_join hp.isSegment base
  rw [fileName?, reverseParts_join hp h]
  simp [hp.1, hp.2.1, hp.2.2.1]

/-- A name goes behind the first parts of a path as a part. -/
theorem join_ofReverseParts {parts : List String} (hp : IsSegment name)
    (noSlash : ∀ part ∈ dropIdle parts, '/' ∉ part.toList) :
    join (ofReverseParts (dropIdle parts)) name =
      String.intercalate "/" ((dropIdle parts).reverse ++ [name]) := by
  rw [join, not_isAbsolute_of_isSegment hp]
  obtain e | ⟨last, rest, e, moves⟩ := dropIdle_cases parts
  all_goals rw [e] at noSlash ⊢
  · simp [ofReverseParts, String.intercalate_singleton]
  · by_cases hl : last = ""
    · obtain rfl : rest = [] := moves.resolve_left (by simp [hl, isMove])
      subst hl
      simp [ofReverseParts, String.intercalate_cons_cons, String.intercalate_singleton]
    · have text : ofReverseParts (last :: rest) =
          String.intercalate "/" (rest.reverse ++ [last]) := by
        rw [ofReverseParts, if_neg (by simp [hl]), List.reverse_cons]
      have ends : ∃ front, ofReverseParts (last :: rest) = front ++ last := by
        rw [text]
        by_cases hr : rest.reverse = []
        · exact ⟨"", by rw [hr]; simp [String.intercalate_singleton]⟩
        · exact ⟨_, by rw [String.intercalate_append_of_ne_nil hr (by simp),
            String.intercalate_singleton]⟩
      have open_ : ofReverseParts (last :: rest) ≠ "" ∧
          (ofReverseParts (last :: rest)).toList.getLast? ≠ some '/' := by
        obtain ⟨front, e⟩ := ends
        rw [e]
        refine ⟨by simp [hl], fun h => ?_⟩
        rw [String.toList_append, List.getLast?_append_of_ne_nil _ (by simpa using hl)] at h
        exact noSlash last (.head _) (List.mem_of_getLast? h)
      have behind : String.intercalate "/" (rest.reverse ++ [last] ++ [name]) =
          String.intercalate "/" (rest.reverse ++ [last]) ++ "/" ++ name := by
        rw [String.intercalate_append_of_ne_nil (by simp) (by simp), String.intercalate_singleton]
      rw [if_neg (by simp), if_neg (by simpa using open_), text, List.reverse_cons, behind]

/-- **The parent of a joined path** leads where the directory does, and goes on by the name. -/
theorem exists_join_parent (hp : IsPlain name) (base : String) :
    ∃ parent, parent? (join base name) = some parent ∧ moves parent = moves base ∧
      isAbsolute parent = isAbsolute (join base name) ∧
      (parent = "" → join base name = name) ∧
      (pathFault? (join base name) = none → pathFault? (join parent name) = none) := by
  obtain ⟨parts, h⟩ := exists_splitOnChar_join hp.isSegment base
  obtain ⟨parent, found, -, start, same⟩ := parent?_of_parts h hp.1 fun e => absurd e hp.2.1
  refine ⟨parent, found, ?_, start, ?_, ?_⟩
  · have all := moves_join hp base
    rw [moves, h, List.filter_append] at all
    have one : [name].filter isMove = [name] := by simp [isMove, hp.1, hp.2.1]
    rw [one] at all
    rw [same, List.append_cancel_right all]
  all_goals
    have whole := intercalate_splitOnChar (join base name)
    rw [h] at whole
    obtain rfl : ofReverseParts (dropIdle parts.reverse) = parent :=
      Option.some.inj ((parent?_of_reverseParts (reverseParts_join hp h) hp.1).symm.trans found)
  · intro empty
    have none : parts = [] := by
      simpa using eq_nil_of_dropIdle (eq_nil_of_ofReverseParts empty)
    rw [← whole, none]
    exact String.intercalate_singleton
  · intro valid
    have noSlash : ∀ p ∈ dropIdle parts.reverse, '/' ∉ p.toList := fun p hm =>
      Text.not_mem_of_mem_splitOnChar
        (h ▸ List.mem_append_left _ (List.mem_reverse.1 ((dropIdle_suffix _).mem hm)))
    rw [join_ofReverseParts hp.isSegment noSlash]
    obtain ⟨idle, split⟩ := dropIdle_suffix parts.reverse
    have split : parts = (dropIdle parts.reverse).reverse ++ idle.reverse := by
      rw [← List.reverse_append, split, List.reverse_reverse]
    rw [← whole] at valid
    by_cases hi : idle = []
    · rw [hi, List.reverse_nil, List.append_nil] at split
      rwa [← split]
    · by_cases hk : dropIdle parts.reverse = []
      · have none : parts = [] := by simpa using eq_nil_of_dropIdle hk
        simpa [none, dropIdle] using valid
      · have hk : (dropIdle parts.reverse).reverse ≠ [] := by simpa using hk
        have hi : idle.reverse ≠ [] := by simpa using hi
        rw [split, List.append_assoc, String.intercalate_append_of_ne_nil hk (by simp),
          String.intercalate_append_of_ne_nil hi (by simp), String.intercalate_singleton] at valid
        rw [String.intercalate_append_of_ne_nil hk (by simp), String.intercalate_singleton]
        exact pathFault?_of_lost (by simp) valid

/-- A name in the parent of a joined path is at the place of the path. -/
theorem locate_join_parent (hp : IsPlain name)
    (h : tree.locate (join base name) = .ok place) :
    ∃ parent, parent? (join base name) = some parent ∧
      tree.locate (join parent name) = .ok place := by
  obtain ⟨parent, found, same, start, alone, valid⟩ := exists_join_parent hp base
  refine ⟨parent, found, ?_⟩
  by_cases hb : parent = ""
  · rwa [hb, join_empty hp.isSegment, ← alone hb]
  · obtain ⟨dir, there, nameless, rfl, leads⟩ := locate_join hp h
    have short : name.utf8ByteSize ≤ 255 := by
      obtain ⟨dir', -, entered, -⟩ := enter_of_locate_join hp.isSegment hp.isSegment h h
      exact ((enter_eq_ok hp).1 entered).2.1
    have based : base ≠ "" := by
      rintro rfl
      have single : Text.splitOnChar '/' (join "" name) = [] ++ [name] := by
        rw [join_empty hp.isSegment, splitOnChar_of_isSegment hp.isSegment]
      cases found.symm.trans (parent?_of_reverseParts (reverseParts_join hp single) hp.1)
      exact hb rfl
    have origin : tree.origin parent = tree.origin base := by
      obtain ⟨rest, hr⟩ := exists_join_eq_append hp.isSegment base
      rw [FileTree.origin, start, hr, isAbsolute_append based, FileTree.origin]
    have made : IsMade parent tree := by
      have made := isMade_of_locate (leads based) there
      rw [IsMade] at made ⊢
      rwa [same, origin]
    have goal := enterAll_of_locate (leads based)
    rw [← same, ← origin] at goal
    exact locate_join_of_isMade hb hp short made nameless goal (valid (resolve_eq_ok.1 h).1)

theorem readText_join_parent (hp : IsPlain name)
    (h : tree.readText (join base name) = .ok text) :
    ∃ parent, parent? (join base name) = some parent ∧
      tree.readText (join parent name) = .ok text := by
  obtain ⟨place, bytes, leads, there, meaning⟩ := readText_eq_ok.1 h
  obtain ⟨parent, found, leads⟩ := locate_join_parent hp leads
  exact ⟨parent, found, readText_eq_ok.2 ⟨place, bytes, leads, there, meaning⟩⟩

theorem exists_of_readText {path : String} (h : tree.readText path = .ok text) :
    tree.exists_ path = true := by
  obtain ⟨place, bytes, leads, there, -⟩ := readText_eq_ok.1 h
  rw [exists_, find?, leads]
  simp [there]

end FileTree

open FileTree

variable {tree : FileTree} {path text name : String}

theorem isPlain_configFile : IsPlain configFile := by
  unfold IsPlain
  decide

/-- What is read from a file that is there. -/
theorem run_present_bind {α : Type} (h : tree.readText path = .ok text) (absent : Failure)
    (next : String → Disk α) :
    (do
      unless ← Disk.look (·.exists_ path) do throw absent
      next (← Disk.readText path)).run tree = (next text).run tree := by
  rw [Disk.run_bind, Artifact.run_look, exists_of_readText h]
  dsimp only
  rw [if_pos rfl]
  show (Disk.readText path >>= next).run tree = _
  rw [Disk.run_bind, run_readText h]

/-- **A configuration is loaded from its file in a directory.** -/
theorem Config.run_load {config : Config} (hne : path ≠ "")
    (h : tree.readText (Path.join path configFile) = .ok text)
    (hc : Config.read text path = .ok config) :
    (Config.load path).run tree =
      (.ok { config with configPath := Path.join path configFile }, tree) := by
  have directory : tree.isDirectory path = true := by
    obtain ⟨dir, leads, there, -⟩ := locate_of_readText_join isPlain_configFile hne h
    exact isDirectory_iff.2 ⟨dir, leads, there⟩
  rw [Config.load, Disk.run_bind, Artifact.run_look, directory]
  dsimp only
  rw [if_pos rfl, if_pos rfl, run_present_bind h, hc]
  rfl

/-- **A program is loaded from the file at its path.** -/
theorem Program.run_load {base : String} {program : Program} (hp : IsPlain name)
    (h : tree.readText (Path.join base name) = .ok text)
    (hr : Program.read text = .ok program) :
    (Program.load (Path.join base name)).run tree = (.ok program, tree) := by
  obtain ⟨parent, found, there⟩ := readText_join_parent hp h
  rw [Program.load, found, fileName?_join hp]
  simp only [Option.getD_some]
  rw [run_present_bind there]
  rw [hr]
  rfl

end FunctionApp
