import FunctionApp.Proofs.Files.Steps

/-!
# How steps on files fail

What a step fails with (`FailsBy`) is what one of the steps fails with that it is put together of.
The steps on files fail with file faults only.
-/

namespace FunctionApp

/-- Failures of the steps that read and write files. -/
def Failure.IsOfFiles : Failure → Prop
  | .file _ | .artifactNotFound _ => True
  | _ => False

namespace Disk

variable {α β : Type} {P : Failure → Prop}

theorem run_bind_eq_error {x : Disk α} {f : α → Disk β} {tree after : FileTree}
    {failure : Failure} :
    (x >>= f).run tree = (.error failure, after) ↔ x.run tree = (.error failure, after) ∨
      ∃ a t, x.run tree = (.ok a, t) ∧ (f a).run t = (.error failure, after) := by
  rw [run_bind]
  rcases x.run tree with ⟨e | a, t⟩
  · simp
  · refine ⟨fun h => .inr ⟨a, t, rfl, h⟩, ?_⟩
    rintro (h | ⟨_, _, ⟨⟩, h⟩)
    · cases h
    · exact h

/-- A step all failures of which satisfy a test. -/
def FailsBy (P : Failure → Prop) (step : Disk α) : Prop :=
  ∀ tree failure after, step.run tree = (.error failure, after) → P failure

namespace FailsBy

theorem pure (a : α) : FailsBy P (Pure.pure a : Disk α) := by
  intro tree failure after h
  cases h

theorem throw {e : Failure} (he : P e) : FailsBy P (throw e : Disk α) := by
  intro tree failure after h
  cases h
  exact he

theorem look (view : FileTree → α) : FailsBy P (look view) := by
  intro tree failure after h
  cases h

theorem modify (f : FileTree → FileTree) : FailsBy P (modify f : Disk Unit) := by
  intro tree failure after h
  cases h

theorem bind {x : Disk α} {f : α → Disk β} (hx : FailsBy P x) (hf : ∀ a, FailsBy P (f a)) :
    FailsBy P (x >>= f) := by
  intro tree failure after h
  rcases run_bind_eq_error.1 h with h | ⟨a, t, -, h⟩
  · exact hx tree failure after h
  · exact hf a t failure after h

/-- What is done with the tree as it stands. -/
theorem get_bind {f : FileTree → Disk α} (hf : ∀ tree, FailsBy P (f tree)) :
    FailsBy P (get >>= f) := by
  refine bind (fun tree failure after h => ?_) hf
  cases h

theorem ite {c : Prop} [Decidable c] {x y : Disk α} (hx : FailsBy P x) (hy : FailsBy P y) :
    FailsBy P (if c then x else y) := by
  split
  · exact hx
  · exact hy

theorem mapM {f : α → Disk β} {as : List α} (hf : ∀ a ∈ as, FailsBy P (f a)) :
    FailsBy P (as.mapM f) := by
  induction as with
  | nil => exact .pure []
  | cons a as ih =>
    rw [List.mapM_cons]
    exact .bind (hf a (.head _)) fun b => .bind (ih fun a h => hf a (.tail _ h)) fun bs => .pure _

section Files

variable (file : ∀ fault, P (.file fault))
include file

theorem looked (view : FileTree → Except FileFault α) : FailsBy P (looked view) := by
  intro tree failure after h
  have run : (Disk.looked view).run tree = ((view tree).mapError .file, tree) := rfl
  rw [run] at h
  cases hv : view tree with
  | ok a =>
    rw [hv] at h
    cases h
  | error fault =>
    rw [hv] at h
    cases h
    exact file fault

theorem change (step : FileTree → Except FileFault FileTree) : FailsBy P (change step) := by
  refine .bind (looked file step) fun tree' tree failure after h => ?_
  cases h

theorem makeDirectories : ∀ (fuel : Nat) (path : String), FailsBy P (makeDirectories fuel path)
  | 0, _ => .throw (file _)
  | fuel + 1, path => by
    have present (fault : FileFault) : FailsBy P
        (do unless ← Disk.look (·.isDirectory path) do MonadExcept.throw (.file fault)) :=
      .bind (.look _) fun _ => .ite (.pure _) (.throw (file _))
    have made (tree : FileTree) : FailsBy P (set tree : Disk Unit) := by
      intro t failure after h
      cases h
    unfold Disk.makeDirectories
    refine .ite (.pure _) (.get_bind fun tree => ?_)
    split
    · exact made _
    · split
      · exact .throw (file _)
      · refine .bind (makeDirectories fuel _) fun _ => .get_bind fun tree => ?_
        split
        · exact made _
        · exact present _
    · exact present _

theorem makeDirectory (path : String) : FailsBy P (makeDirectory path) :=
  makeDirectories file _ path

theorem removeDirectory (path : String) : FailsBy P (removeDirectory path) := by
  refine .bind (looked file _) fun place => .bind (.modify _) fun _ => .get_bind fun tree => ?_
  split
  · intro t failure after h
    cases h
  · exact .pure _
  · exact .throw (file _)

theorem copy (source target : String) : FailsBy P (copy source target) :=
  .bind (looked file _) fun _ => .bind (change file _) fun _ => .bind (looked file _) fun _ =>
    change file _

end Files

end FailsBy

end Disk

end FunctionApp
