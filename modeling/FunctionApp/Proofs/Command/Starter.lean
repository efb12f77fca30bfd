import FunctionApp.Command.Starter
import FunctionApp.Proofs.Build.Loading
import FunctionApp.Proofs.Files.Batch
import FunctionApp.Proofs.Package.Placed

/-!
# What making a project changes

A new project is not made where a configuration is. Behind this check its files are written one
after the other, until one cannot be, whatever stands in their places: a configuration is never
lost, but a program and an ignore file that were there are (`create_spares_iff`).
-/

namespace FunctionApp

open FileTree Disk

/-! ## Files written until one cannot be -/

namespace Disk

variable {tree after : FileTree} {dir : String} {files : List (String × String)}
  {result : Except Failure (List String)}

/-- Texts under their names in a directory, as they are put there: the last one first. -/
def asPut (files : List (String × String)) : List (Place × ByteArray) :=
  (files.map fun f => ([f.1], f.2.toUTF8)).reverse

theorem asPut_cons (f : String × String) (files : List (String × String)) :
    asPut (f :: files) = asPut files ++ [([f.1], f.2.toUTF8)] := by
  rw [asPut, List.map_cons, List.reverse_cons, asPut]

theorem lookup_asPut_eq_none_iff {name : String} :
    (asPut files).lookup [name] = none ↔ name ∉ files.map Prod.fst := by
  rw [lookup_eq_none_iff_not_mem]
  simp [asPut]

/-- Of files with different names each one is put. -/
theorem lookup_asPut {f : String × String} (nodup : (files.map Prod.fst).Nodup) (h : f ∈ files) :
    (asPut files).lookup [f.1] = some f.2.toUTF8 := by
  induction files with
  | nil => cases h
  | cons g files ih =>
    obtain ⟨fresh, nodup⟩ := List.nodup_cons.1 nodup
    rw [asPut_cons, List.lookup_append]
    rcases List.mem_cons.1 h with rfl | h
    · rw [lookup_asPut_eq_none_iff.2 fresh]
      simp
    · rw [ih nodup h]
      rfl

/-- Of files that are written into a directory the first ones are put there, and all of them just if
the writing succeeds. -/
theorem putsIn_of_run_writeFiles (hp : ∀ f ∈ files, IsPlain f.1)
    (h : (writeFiles dir files).run tree = (result, after)) :
    ∃ done, done <+: files ∧ (result.isOk = true ↔ done = files) ∧
      (done = [] → after = tree) ∧
      (∀ f ∈ done.head?, ∃ place, tree.locate (Path.join dir f.1) = .ok place) ∧
      PutsIn dir (asPut done) tree after := by
  induction files generalizing tree result with
  | nil =>
    cases h
    exact ⟨[], List.prefix_rfl, by simp [Except.isOk, Except.toBool], fun _ => rfl, by simp,
      .nothing (.refl _)⟩
  | cons f files ih =>
    rw [run_writeFiles_cons] at h
    cases hw : tree.write (Path.join dir f.1) f.2.toUTF8 with
    | error fault =>
      rw [hw] at h
      cases h
      exact ⟨[], List.nil_prefix, by simp [Except.isOk, Except.toBool], fun _ => rfl, by simp,
        .nothing (.refl _)⟩
    | ok written =>
      rw [hw] at h
      dsimp only at h
      have first := PutsIn.writeText (hp f (.head _)) (run_writeText_eq_ok.2 hw)
      obtain ⟨place, hl, -⟩ := puts_of_write hw
      have wrote {done : List (String × String)} (rest : PutsIn dir (asPut done) written after) :
          PutsIn dir (asPut (f :: done)) tree after := by
        rw [asPut_cons]
        exact first.trans rest
      rw [run_bind] at h
      rcases hr : (writeFiles dir files).run written with ⟨e | paths, t⟩
      all_goals
        rw [hr] at h
        cases h
        obtain ⟨done, begun, whole, -, -, rest⟩ := ih (fun f hf => hp f (.tail _ hf)) hr
        refine ⟨f :: done, (List.prefix_cons_inj f).2 begun, whole.trans (by simp), by simp,
          fun g hg => ?_, wrote rest⟩
        cases hg
        exact ⟨place, hl⟩

end Disk

/-! ## Steps of a command -/

namespace CommandStep

variable {α β : Type} {tree : FileTree}

def run (step : CommandStep α) (tree : FileTree) : Except CommandFailure α × FileTree :=
  StateT.run (ExceptT.run step) tree

theorem run_bind_cases {x : CommandStep α} {f : α → CommandStep β}
    {r : Except CommandFailure β × FileTree} (h : run (x >>= f) tree = r) :
    (∃ e t, x.run tree = (.error e, t) ∧ r = (.error e, t)) ∨
      ∃ a t, x.run tree = (.ok a, t) ∧ (f a).run t = r := by
  rw [run, ExceptT.run_bind, StateT.run_bind] at h
  rcases hx : x.run tree with ⟨e | a, t⟩
  · rw [run] at hx
    rw [hx] at h
    exact .inl ⟨e, t, rfl, h.symm⟩
  · rw [run] at hx
    rw [hx] at h
    exact .inr ⟨a, t, rfl, h⟩

theorem run_onFiles (tell : Failure → CommandFailure) (step : Disk α) (tree : FileTree) :
    run (onFiles tell step) tree = ((step.run tree).1.mapError tell, (step.run tree).2) :=
  rfl

theorem run_look_bind (tell : Failure → CommandFailure) (view : FileTree → α)
    (f : α → CommandStep β) (tree : FileTree) :
    run (onFiles tell (Disk.look view) >>= f) tree = run (f (view tree)) tree :=
  rfl

end CommandStep

open CommandStep

namespace Starter

variable {path project : String} {name : Option String} {tree made after : FileTree}
  {result : Except CommandFailure Unit} {dir : Place}

/-- The files of a new project, as they are written. -/
def starterFiles (project : String) : List (String × String) :=
  [(configFile, configText project), ("program.yaml", programText project),
    (".gitignore", ignoreText)]

theorem isPlain_of_mem_starterFiles {f : String × String} (h : f ∈ starterFiles project) :
    IsPlain f.1 := by
  have plain : ∀ name ∈ [configFile, "program.yaml", ".gitignore"], IsPlain name := by
    unfold IsPlain
    decide
  exact plain f.1 (List.mem_map_of_mem h)

/-- The directory of a new project is made if it is not there. -/
theorem made_of_run {next : Unit → CommandStep Unit}
    (h : run (if tree.exists_ path = true then next () else do
      let done ← onFiles .starter (Disk.makeDirectory path)
      next done) tree = (result, after)) :
    ∃ made, Puts [] tree made ∧
      ((∃ e, result = .error e) ∧ after = made ∨ run (next ()) made = (result, after)) := by
  split at h
  · exact ⟨tree, .refl tree, .inr h⟩
  · rcases run_bind_cases h with ⟨e, t, hm, hr⟩ | ⟨⟨⟩, t, hm, h⟩
    all_goals
      rw [run_onFiles, Prod.mk.injEq] at hm
      obtain ⟨-, rfl⟩ := hm
      have still : Puts [] tree ((Disk.makeDirectory path).run tree).2 :=
        (adds_of_run_makeDirectory rfl).puts
    · cases hr
      exact ⟨_, still, .inl ⟨⟨e, rfl⟩, rfl⟩⟩
    · exact ⟨_, still, .inr h⟩

theorem writes_eq (path project : String) : (do
      writeText (Path.join path configFile) (configText project)
      writeText (Path.join path "program.yaml") (programText project)
      writeText (Path.join path ".gitignore") ignoreText) =
    (do
      let _ ← writeFiles path (starterFiles project)
      return ()) := by
  simp [writeFiles, starterFiles]

/-- What a run does: it fails before it writes a file, or it writes the files of a project where no
configuration is. -/
theorem create_cases (h : (create path name).run tree = (result, after)) :
    ∃ made, Puts [] tree made ∧ ((∃ e, result = .error e) ∧ after = made ∨
      ∃ dir project written, made.locate path = .ok dir ∧ name.or dir.getLast? = some project ∧
        made.exists_ (Path.join path configFile) = false ∧
        (writeFiles path (starterFiles project)).run made = (written, after) ∧
        result.isOk = written.isOk) := by
  unfold create at h
  rw [run_look_bind] at h
  obtain ⟨made, still, ⟨failed, rfl⟩ | h⟩ := made_of_run h
  · exact ⟨after, still, .inl ⟨failed, rfl⟩⟩
  refine ⟨made, still, ?_⟩
  rcases run_bind_cases h with ⟨e, t, hl, hr⟩ | ⟨directory, t, hl, h⟩
  all_goals obtain rfl : made = t := congrArg Prod.snd hl
  · cases hr
    exact .inl ⟨⟨e, rfl⟩, rfl⟩
  split at h
  · cases h
    exact .inl ⟨⟨_, rfl⟩, rfl⟩
  next project named =>
  dsimp only at h
  rw [run_look_bind] at h
  split at h
  · cases h
    exact .inl ⟨⟨_, rfl⟩, rfl⟩
  · next absent =>
    have found : directoryName? path made = .ok directory :=
      mapError_eq_ok.1 (mapError_eq_ok.1 (congrArg Prod.fst hl))
    obtain ⟨dir, leads, found⟩ := bind_eq_ok.1 found
    split at found
    · cases found
    cases found
    rw [writes_eq, run_onFiles, run_bind] at h
    rcases hw : (writeFiles path (starterFiles project)).run made with ⟨e | paths, t⟩
    all_goals
      rw [hw] at h
      cases h
      exact .inr ⟨dir, project, _, leads, by simpa using named, by simpa using absent, hw, rfl⟩

/-! ## The files of a project -/

/-- A tree after the first files of a project were written into a directory that had no
configuration. -/
structure Begun (project : String) (dir : Place) (done : List (String × String))
    (tree after : FileTree) : Prop where
  vacant : tree.bytes? (dir ++ [configFile]) = none
  nonempty : done ≠ []
  order : done <+: starterFiles project
  written : ∀ f ∈ done, after.bytes? (dir ++ [f.1]) = some f.2.toUTF8
  beyond : ∀ p, (∀ f ∈ done, p ≠ dir ++ [f.1]) → after.bytes? p = tree.bytes? p

theorem nodup_names (project : String) : ((starterFiles project).map Prod.fst).Nodup := by
  show [configFile, "program.yaml", ".gitignore"].Nodup
  decide

theorem begun_of_puts {done : List (String × String)}
    (vacant : tree.bytes? (dir ++ [configFile]) = none) (nonempty : done ≠ [])
    (order : done <+: starterFiles project) (puts : Puts (inside dir (asPut done)) tree after) :
    Begun project dir done tree after := by
  refine ⟨vacant, nonempty, order, fun f hf => ?_, fun p hp => ?_⟩
  · have nodup := (nodup_names project).sublist (order.sublist.map Prod.fst)
    rw [puts.bytes, lookup_inside_within, lookup_asPut nodup hf]
    rfl
  · have beyond : (inside dir (asPut done)).lookup p = none := by
      rw [lookup_eq_none_iff_not_mem]
      simpa [inside, asPut, eq_comm] using hp
    rw [puts.bytes, beyond]
    rfl

/-- A run writes nothing and fails, or it writes the first files of a project, and all of them just
if it succeeds. -/
theorem begun_of_create (h : (create path name).run tree = (result, after)) :
    (result.isOk = false ∧ ∀ p, after.bytes? p = tree.bytes? p) ∨
      ∃ dir project done, tree.goal path = .ok dir ∧ name.or dir.getLast? = some project ∧
        Begun project dir done tree after ∧
        (result.isOk = true ↔ done = starterFiles project) := by
  obtain ⟨made, still, ⟨⟨e, rfl⟩, rfl⟩ | wrote⟩ := create_cases h
  · exact .inl ⟨rfl, still.bytes⟩
  obtain ⟨dir, project, written, leads, named, absent, hw, ended⟩ := wrote
  obtain ⟨done, order, whole, unchanged, entered, puts⟩ :=
    putsIn_of_run_writeFiles (fun f hf => isPlain_of_mem_starterFiles hf) hw
  rw [← ended] at whole
  have goal := enterAll_of_locate leads
  cases done with
  | nil =>
    have failed : result.isOk = false := by
      rw [← Bool.not_eq_true, whole]
      exact (List.cons_ne_nil _ _).symm
    exact .inl ⟨failed, unchanged rfl ▸ still.bytes⟩
  | cons f done =>
    obtain ⟨rfl, -⟩ : f = (configFile, configText project) ∧ done <+: _ :=
      List.cons_prefix_cons.1 order
    obtain ⟨place, hl⟩ := entered _ rfl
    obtain ⟨dir', hg, rfl⟩ := goal_of_locate_join isPlain_configFile hl
    cases goal.symm.trans hg
    have vacant : tree.bytes? (dir ++ [configFile]) = none := by
      have free : made.entry? (dir ++ [configFile]) = none := by
        rw [exists_, find?, hl] at absent
        simpa using absent
      have same := still.bytes (dir ++ [configFile])
      rw [bytes?, free] at same
      exact same.symm
    have both := still.trans (puts.puts dir goal)
    rw [List.append_nil] at both
    exact .inr ⟨dir, project, _, goal_of_here still.here path ▸ goal, named,
      begun_of_puts vacant (List.cons_ne_nil _ _) order both, whole⟩

/-! ## The files that were there -/

/-- Every file that was there has the bytes that it had. -/
def Spares (tree after : FileTree) : Prop :=
  ∀ p bytes, tree.bytes? p = some bytes → after.bytes? p = some bytes

theorem Begun.spares_iff {done : List (String × String)}
    (h : Begun project dir done tree after) :
    Spares tree after ↔ ∀ f ∈ done, ∀ bytes, tree.bytes? (dir ++ [f.1]) = some bytes →
      bytes = f.2.toUTF8 := by
  constructor
  · intro spared f hf bytes there
    exact Option.some.inj ((spared _ _ there).symm.trans (h.written f hf))
  · intro same p bytes there
    by_cases hp : ∃ f ∈ done, p = dir ++ [f.1]
    · obtain ⟨f, hf, rfl⟩ := hp
      rw [h.written f hf, same f hf bytes there]
    · rw [h.beyond p fun f hf e => hp ⟨f, hf, e⟩, there]

/-- **What making a project changes.** A run that writes nothing fails and changes no file. Any
other run writes the first files of a project into a directory without a configuration, all of them
just if it succeeds, and changes no other file. So the files that were there are as they were if and
only if none of the written ones stood there with other bytes. -/
theorem create_spares_iff (h : (create path name).run tree = (result, after)) :
    (result.isOk = false ∧ ∀ p, after.bytes? p = tree.bytes? p) ∨
      ∃ dir project done, tree.goal path = .ok dir ∧ name.or dir.getLast? = some project ∧
        Begun project dir done tree after ∧
        (result.isOk = true ↔ done = starterFiles project) ∧
        (Spares tree after ↔ ∀ f ∈ done, ∀ bytes, tree.bytes? (dir ++ [f.1]) = some bytes →
          bytes = f.2.toUTF8) := by
  refine (begun_of_create h).imp_right ?_
  rintro ⟨dir, project, done, leads, named, begun, whole⟩
  exact ⟨dir, project, done, leads, named, begun, whole, begun.spares_iff⟩

/-- A directory with a file that is none of a project's. -/
def notesTree : FileTree :=
  ⟨[(["app"], .directory), (["app", "notes.txt"], .file "mine".toUTF8)], []⟩

theorem create_spares_notes :
    ∃ after, (create "app" none).run notesTree = (.ok (), after) ∧ Spares notesTree after := by
  have run : ((create "app" none).run notesTree).1.isOk = true := by decide +kernel
  obtain ⟨⟨⟩, after, hr⟩ := isOk_iff_exists.1 run
  refine ⟨after, hr, ?_⟩
  obtain ⟨failed, -⟩ | ⟨dir, project, done, leads, -, begun, -, spares⟩ := create_spares_iff hr
  · cases failed
  have app : notesTree.goal "app" = .ok ["app"] := rfl
  cases app.symm.trans leads
  have free : ∀ name ∈ [configFile, "program.yaml", ".gitignore"],
      notesTree.bytes? (["app"] ++ [name]) = none := by
    decide
  refine spares.2 fun f hf bytes there => ?_
  have absent := free f.1 (List.mem_map_of_mem (begun.order.subset hf))
  cases absent.symm.trans there

/-- A directory with a program of its own. -/
def ownTree : FileTree := ⟨[(["program.yaml"], .file "mine\n".toUTF8)], []⟩

/-- A run that succeeds loses the program that was there. -/
theorem program_overwritten :
    ∃ after, (create "." (some "x")).run ownTree = (.ok (), after) ∧
      ownTree.bytes? ["program.yaml"] = some "mine\n".toUTF8 ∧
      after.bytes? ["program.yaml"] = some (programText "x").toUTF8 ∧ ¬Spares ownTree after := by
  have run : ((create "." (some "x")).run ownTree).1.isOk = true := by decide +kernel
  have there : ownTree.bytes? ["program.yaml"] = some "mine\n".toUTF8 := rfl
  have lost : ((create "." (some "x")).run ownTree).2.bytes? ["program.yaml"] =
      some (programText "x").toUTF8 := by
    rfl
  have other : programText "x" ≠ "mine\n" := by decide +kernel
  obtain ⟨⟨⟩, after, hr⟩ := isOk_iff_exists.1 run
  rw [hr] at lost
  refine ⟨after, hr, there, lost, fun spared => other ?_⟩
  exact String.toByteArray_inj.1 (Option.some.inj (lost.symm.trans (spared _ _ there)))

end Starter

end FunctionApp
