import FunctionApp.Files.Tree
import FunctionApp.Proofs.Results

/-!
# What steps on a tree keep

A step keeps an invariant of the tree (`Keeps`) whether it succeeds or fails, since what it did
before it failed stays done. A step that is put together of others keeps what they all keep.
-/

namespace FunctionApp

namespace FileTree

variable {tree tree' : FileTree} {path : String}

/-- A new directory stands where nothing was. -/
theorem makeDirectory_eq_ok (h : tree.makeDirectory path = .ok tree') :
    ∃ place, tree.entry? place = none ∧ tree' = tree.set place .directory := by
  obtain ⟨place, _, h⟩ := bind_eq_ok.1 h
  split at h
  · cases h
  · next hn =>
    cases h
    exact ⟨place, by simpa using hn, rfl⟩

/-- A file is written where no directory was. -/
theorem write_eq_ok {bytes : ByteArray} (h : tree.write path bytes = .ok tree') :
    ∃ place, tree.locate path = .ok place ∧ tree.entry? place ≠ some .directory ∧
      tree' = tree.set place (.file bytes) := by
  obtain ⟨place, hp, h⟩ := bind_eq_ok.1 h
  split at h
  · cases h
  · next hn =>
    cases h
    refine ⟨place, hp, fun hd => hn ?_, rfl⟩
    rw [hd]
    rfl

theorem removeEmptyDirectory_eq_ok (h : tree.removeEmptyDirectory path = .ok tree') :
    ∃ place, tree.entry? place = some .directory ∧ tree' = tree.drop (· = place) := by
  obtain ⟨_, _, h⟩ := bind_eq_ok.1 h
  dsimp only at h
  split at h
  · cases h
  · split at h
    · cases h
    · obtain ⟨place, _, h⟩ := bind_eq_ok.1 h
      split at h
      · next there =>
        split at h
        · cases h
        · cases h
          exact ⟨place, there, rfl⟩
      · cases h
      · cases h

theorem removeFile_eq_ok (h : tree.removeFile path = .ok tree') :
    ∃ place, tree' = tree.drop (· = place) := by
  obtain ⟨place, _, h⟩ := bind_eq_ok.1 h
  split at h
  · cases h
    exact ⟨place, rfl⟩
  · cases h
  · cases h

theorem readText_eq_ok {text : String} : tree.readText path = .ok text ↔
    ∃ place bytes, tree.locate path = .ok place ∧ tree.entry? place = some (.file bytes) ∧
      String.fromUTF8? bytes = some text := by
  constructor
  · intro h
    obtain ⟨bytes, hr, ht⟩ := bind_eq_ok.1 h
    obtain ⟨place, hp, hb⟩ := bind_eq_ok.1 hr
    refine ⟨place, bytes, hp, ?_⟩
    split at hb
    · next b he =>
      cases hb
      split at ht
      · next t hd =>
        cases ht
        exact ⟨he, hd⟩
      · cases ht
    · cases hb
    · cases hb
  · rintro ⟨place, bytes, hp, he, ht⟩
    simp only [readText, read, hp, bind, Except.bind, he, pure, Except.pure, ht]

end FileTree

namespace Disk

variable {α β : Type}

theorem run_bind (x : Disk α) (f : α → Disk β) (tree : FileTree) :
    (x >>= f).run tree =
      match x.run tree with
      | (.ok a, t) => (f a).run t
      | (.error e, t) => (.error e, t) := by
  show (ExceptT.run (x >>= f)).run tree = _
  rw [ExceptT.run_bind, StateT.run_bind]
  show _ = match StateT.run (ExceptT.run x) tree with
    | (.ok a, t) => (f a).run t
    | (.error e, t) => (.error e, t)
  generalize StateT.run (ExceptT.run x) tree = r
  obtain ⟨_ | _, t⟩ := r <;> rfl

theorem run_bind_eq_ok {x : Disk α} {f : α → Disk β} {tree after : FileTree} {b : β} :
    (x >>= f).run tree = (.ok b, after) ↔
      ∃ a t, x.run tree = (.ok a, t) ∧ (f a).run t = (.ok b, after) := by
  rw [run_bind]
  rcases x.run tree with ⟨e | a, t⟩
  · simp
  · refine ⟨fun h => ⟨a, t, rfl, h⟩, ?_⟩
    rintro ⟨_, _, ⟨⟩, h⟩
    exact h

/-- Steps for each member of a list are the step for the first one and then those for the others. -/
theorem run_mapM_cons_eq_ok {f : α → Disk β} {a : α} {as : List α} {bs : List β}
    {tree after : FileTree} :
    ((a :: as).mapM f).run tree = (.ok bs, after) ↔
      ∃ b t more, (f a).run tree = (.ok b, t) ∧ (as.mapM f).run t = (.ok more, after) ∧
        bs = b :: more := by
  rw [List.mapM_cons]
  constructor
  · intro h
    obtain ⟨b, t, first, h⟩ := run_bind_eq_ok.1 h
    obtain ⟨more, t', others, h⟩ := run_bind_eq_ok.1 h
    cases h
    exact ⟨b, t, more, first, others, rfl⟩
  · rintro ⟨b, t, more, first, others, rfl⟩
    exact run_bind_eq_ok.2 ⟨b, t, first, run_bind_eq_ok.2 ⟨more, after, others, rfl⟩⟩

theorem run_attempt (step : Disk α) (tree : FileTree) :
    (attempt step).run tree = (.ok (step.run tree).1, (step.run tree).2) := rfl

theorem run_change (step : FileTree → Except FileFault FileTree) (tree : FileTree) :
    (change step).run tree =
      match step tree with
      | .ok tree' => (.ok (), tree')
      | .error fault => (.error (.file fault), tree) := by
  rw [change, run_bind]
  have looked : (looked step).run tree = ((step tree).mapError .file, tree) := rfl
  rw [looked]
  cases step tree <;> rfl

theorem run_writeText (path text : String) (tree : FileTree) :
    (writeText path text).run tree =
      match tree.write path text.toUTF8 with
      | .ok tree' => (.ok (), tree')
      | .error fault => (.error (.file fault), tree) :=
  run_change _ tree

theorem run_writeText_eq_ok {path text : String} {tree after : FileTree} :
    (writeText path text).run tree = (.ok (), after) ↔
      tree.write path text.toUTF8 = .ok after := by
  rw [run_writeText]
  cases tree.write path text.toUTF8 <;> simp

/-- A run that succeeds has a result. -/
theorem isOk_iff_exists {ε : Type} {r : Except ε α × FileTree} :
    r.1.isOk = true ↔ ∃ a t, r = (.ok a, t) := by
  obtain ⟨e | a, t⟩ := r <;> simp [Except.isOk, Except.toBool]

/-- A step after which an invariant still holds, also if the step fails. -/
def Keeps (I : FileTree → Prop) (step : Disk α) : Prop := ∀ tree, I tree → I (step.run tree).2

namespace Keeps

variable {I : FileTree → Prop}

theorem pure (a : α) : Keeps I (Pure.pure a : Disk α) := fun _ h => h

theorem throw (e : Failure) : Keeps I (throw e : Disk α) := fun _ h => h

theorem ofExcept (r : Except Failure α) : Keeps I (ofExcept r) := fun _ h => h

theorem look (view : FileTree → α) : Keeps I (look view) := fun _ h => h

theorem looked (view : FileTree → Except FileFault α) : Keeps I (looked view) := fun _ h => h

/-- A step that goes on with a result that the one before can have. -/
theorem bind_result {x : Disk α} {f : α → Disk β} (hx : Keeps I x)
    (hf : ∀ tree a after, x.run tree = (.ok a, after) → Keeps I (f a)) : Keeps I (x >>= f) := by
  intro tree h
  have hx := hx tree h
  rw [run_bind]
  cases hr : x.run tree with
  | mk r t =>
    rw [hr] at hx
    cases r with
    | ok a => exact hf tree a t hr t hx
    | error e => exact hx

theorem bind {x : Disk α} {f : α → Disk β} (hx : Keeps I x) (hf : ∀ a, Keeps I (f a)) :
    Keeps I (x >>= f) :=
  bind_result hx fun _ a _ _ => hf a

/-- What is done with the tree as it stands. -/
theorem get_bind {f : FileTree → Disk α} (hf : ∀ tree, I tree → I ((f tree).run tree).2) :
    Keeps I (get >>= f) := by
  intro tree h
  rw [run_bind]
  exact hf tree h

theorem and {J : FileTree → Prop} {x : Disk α} (hi : Keeps I x) (hj : Keeps J x) :
    Keeps (fun tree => I tree ∧ J tree) x :=
  fun tree h => ⟨hi tree h.1, hj tree h.2⟩

theorem ite {c : Prop} [Decidable c] {x y : Disk α} (hx : Keeps I x) (hy : Keeps I y) :
    Keeps I (if c then x else y) := by
  split
  · exact hx
  · exact hy

theorem mapM {f : α → Disk β} {as : List α} (hf : ∀ a ∈ as, Keeps I (f a)) :
    Keeps I (as.mapM f) := by
  induction as with
  | nil => exact .pure []
  | cons a as ih =>
    rw [List.mapM_cons]
    exact .bind (hf a (.head _)) fun b => .bind (ih fun a h => hf a (.tail _ h)) fun bs => .pure _

theorem attempt {step : Disk α} (h : Keeps I step) : Keeps I (attempt step) := by
  intro tree hi
  rw [run_attempt]
  exact h tree hi

theorem change {step : FileTree → Except FileFault FileTree}
    (h : ∀ tree tree', I tree → step tree = .ok tree' → I tree') : Keeps I (change step) := by
  intro tree hi
  rw [run_change]
  cases hs : step tree with
  | ok tree' => exact h tree tree' hi hs
  | error fault => exact hi

theorem makeDirectories
    (h : ∀ tree path tree', I tree → tree.makeDirectory path = .ok tree' → I tree') :
    ∀ (fuel : Nat) (path : String), Keeps I (makeDirectories fuel path)
  | 0, _ => .throw _
  | fuel + 1, path => by
    have present (fault : FileFault) :
        Keeps I (do unless ← Disk.look (·.isDirectory path) do MonadExcept.throw (.file fault)) :=
      .bind (.look _) fun _ => .ite (.pure _) (.throw _)
    unfold Disk.makeDirectories
    refine .ite (.pure _) (.get_bind fun tree hi => ?_)
    split
    · next tree' hm => exact h tree path tree' hi hm
    · split
      · exact Keeps.throw _ tree hi
      · next parent _ =>
        refine Keeps.bind (makeDirectories h fuel parent) (fun _ => .get_bind fun tree hi => ?_)
          tree hi
        split
        · next tree' hm => exact h tree path tree' hi hm
        · exact present _ tree hi
    · exact present _ tree hi

theorem makeDirectory
    (h : ∀ tree path tree', I tree → tree.makeDirectory path = .ok tree' → I tree')
    (path : String) : Keeps I (makeDirectory path) :=
  makeDirectories h _ path

theorem copy {source target : String}
    (h : ∀ tree bytes tree', I tree → tree.write target bytes = .ok tree' → I tree') :
    Keeps I (copy source target) :=
  .bind (.looked _) fun _ => .bind (.change fun _ _ => h _ _ _) fun _ =>
    .bind (.looked _) fun _ => .change fun _ _ => h _ _ _

end Keeps

end Disk

end FunctionApp
