import FunctionApp.Proofs.Files.Directories

/-!
# Trees that look alike

Two trees look alike in a view of their entries if it shows the same at every place and they have one
working directory. A step cannot tell such trees apart (`Agrees`) if it looks at them through the view
only: it ends the same way on both, and leaves trees that look alike. Every view here tells
directories from files.
-/

namespace FunctionApp

namespace FileTree

variable {α : Type} {view : FileEntry → α} {tree tree' : FileTree} {place : Place}
  {entry entry' : FileEntry} {path : String}

structure Alike (view : FileEntry → α) (tree tree' : FileTree) : Prop where
  here : tree'.here = tree.here
  entries : ∀ p, (tree'.entry? p).map view = (tree.entry? p).map view

/-- A view that tells directories from files. -/
def Tells (view : FileEntry → α) : Prop :=
  ∀ e e', view e = view e' → e.isDirectory = e'.isDirectory

theorem tells_id : Tells id := fun _ _ h => congrArg FileEntry.isDirectory h

theorem tells_isDirectory : Tells FileEntry.isDirectory := fun _ _ h => h

namespace Alike

theorem refl (view : FileEntry → α) (tree : FileTree) : Alike view tree tree :=
  ⟨rfl, fun _ => rfl⟩

theorem isNone (h : Alike view tree tree') (p : Place) :
    tree'.entry? p = none ↔ tree.entry? p = none := by
  rw [← Option.map_eq_none_iff (f := view), h.entries, Option.map_eq_none_iff]

theorem directory (h : Alike view tree tree') (ht : Tells view) (p : Place) :
    (tree'.entry? p).map FileEntry.isDirectory = (tree.entry? p).map FileEntry.isDirectory := by
  have same := h.entries p
  cases he : tree.entry? p with
  | none => rw [(h.isNone p).2 he]
  | some e =>
    cases he' : tree'.entry? p with
    | none => rw [(h.isNone p).1 he'] at he; cases he
    | some e' =>
      rw [he, he'] at same
      exact congrArg some (ht e' e (Option.some.inj same))

theorem set (h : Alike view tree tree') (place : Place) (he : view entry = view entry') :
    Alike view (tree.set place entry) (tree'.set place entry') := by
  refine ⟨h.here, fun p => ?_⟩
  rw [entry?_set, entry?_set]
  split
  · rw [Option.map_some, Option.map_some, he]
  · exact h.entries p

theorem walk (h : Alike view tree tree') (ht : Tells view) (here : Place) (names : List String) :
    tree'.walk here names = tree.walk here names := by
  induction names generalizing here with
  | nil => rfl
  | cons name names ih =>
    have same := h.directory ht here
    rw [FileTree.walk, FileTree.walk]
    cases he : tree.entry? here with
    | none => rw [(h.isNone here).2 he]
    | some e =>
      cases he' : tree'.entry? here with
      | none => rw [(h.isNone here).1 he'] at he; cases he
      | some e' =>
        rw [he, he'] at same
        cases e with
        | file bytes =>
          cases e' with
          | file bytes' => rfl
          | directory => cases same
        | directory =>
          cases e' with
          | file bytes' => cases same
          | directory =>
            dsimp only
            cases enter here name with
            | error fault => rfl
            | ok next => exact ih next

theorem resolve (h : Alike view tree tree') (ht : Tells view) (path : String)
    (names : List String) : tree'.resolve path names = tree.resolve path names := by
  rw [FileTree.resolve, FileTree.resolve, origin, h.here, ← origin]
  cases pathFault? path with
  | some fault => rfl
  | none => exact h.walk ht _ names

theorem locate (h : Alike view tree tree') (ht : Tells view) (path : String) :
    tree'.locate path = tree.locate path :=
  h.resolve ht path _

theorem isDirectory (h : Alike view tree tree') (ht : Tells view) (path : String) :
    tree'.isDirectory path = tree.isDirectory path := by
  rw [FileTree.isDirectory, FileTree.isDirectory, find?, find?, h.locate ht]
  cases tree.locate path with
  | error fault => rfl
  | ok place =>
    have same := congrArg (·.any id) (h.directory ht place)
    simpa [Option.any_map] using same

/-- Trees that look alike as they are have the same entries. -/
theorem entry? (h : Alike id tree tree') (p : Place) : tree'.entry? p = tree.entry? p := by
  simpa using h.entries p

theorem read (h : Alike id tree tree') (path : String) : tree'.read path = tree.read path := by
  rw [FileTree.read, FileTree.read, h.locate tells_id]
  cases tree.locate path with
  | error fault => rfl
  | ok place =>
    simp only [bind, Except.bind]
    rw [h.entry? place]

theorem isFile (h : Alike id tree tree') (path : String) : tree'.isFile path = tree.isFile path := by
  rw [FileTree.isFile, FileTree.isFile, find?, find?, h.locate tells_id]
  cases tree.locate path with
  | error fault => rfl
  | ok place =>
    dsimp only
    rw [h.entry? place]

/-- A step on a tree that cannot tell it from another one. -/
inductive Same (view : FileEntry → α) :
    Except FileFault FileTree → Except FileFault FileTree → Prop where
  | ok {tree tree' : FileTree} : Alike view tree tree' → Same view (.ok tree) (.ok tree')
  | error (fault : FileFault) : Same view (.error fault) (.error fault)

theorem write (h : Alike view tree tree') (ht : Tells view) (path : String) {bytes bytes' : ByteArray}
    (hb : view (.file bytes) = view (.file bytes')) :
    Same view (tree.write path bytes) (tree'.write path bytes') := by
  rw [FileTree.write, FileTree.write, h.locate ht]
  cases tree.locate path with
  | error fault => exact .error fault
  | ok place =>
    have same := congrArg (·.any id) (h.directory ht place)
    have same : (tree'.entry? place).any FileEntry.isDirectory =
        (tree.entry? place).any FileEntry.isDirectory := by
      simpa [Option.any_map] using same
    simp only [bind, Except.bind, same]
    split
    · exact .error _
    · exact .ok (h.set place hb)

theorem makeDirectory (h : Alike view tree tree') (ht : Tells view) (path : String) :
    Same view (tree.makeDirectory path) (tree'.makeDirectory path) := by
  rw [FileTree.makeDirectory, FileTree.makeDirectory, h.resolve ht]
  cases tree.resolve path (names (withoutSlash path)) with
  | error fault => exact .error fault
  | ok place =>
    have same : (tree'.entry? place).isSome = (tree.entry? place).isSome := by
      simpa using congrArg Option.isSome (h.entries place)
    simp only [bind, Except.bind, same]
    split
    · exact .error _
    · exact .ok (h.set place rfl)

end Alike

end FileTree

open FileTree

namespace Disk

variable {α β γ : Type} {view : FileEntry → α}

/-- Steps that go the same way on trees that look alike. -/
def Agrees (view : FileEntry → α) (x y : Disk β) : Prop :=
  ∀ tree tree', Alike view tree tree' →
    (x.run tree).1 = (y.run tree').1 ∧ Alike view (x.run tree).2 (y.run tree').2

namespace Agrees

theorem pure (b : β) : Agrees view (Pure.pure b : Disk β) (Pure.pure b) := fun _ _ h => ⟨rfl, h⟩

theorem throw (e : Failure) : Agrees view (throw e : Disk β) (MonadExcept.throw e) :=
  fun _ _ h => ⟨rfl, h⟩

theorem look {f : FileTree → β} (hf : ∀ tree tree', Alike view tree tree' → f tree' = f tree) :
    Agrees view (look f) (look f) :=
  fun tree tree' h => ⟨congrArg Except.ok (hf tree tree' h).symm, h⟩

theorem looked {f : FileTree → Except FileFault β}
    (hf : ∀ tree tree', Alike view tree tree' → f tree' = f tree) :
    Agrees view (looked f) (looked f) := by
  intro tree tree' h
  have run (t : FileTree) : (Disk.looked f).run t = ((f t).mapError .file, t) := rfl
  rw [run, run, hf tree tree' h]
  exact ⟨rfl, h⟩

theorem bind {x y : Disk β} {f g : β → Disk γ} (hx : Agrees view x y)
    (hf : ∀ b, Agrees view (f b) (g b)) : Agrees view (x >>= f) (y >>= g) := by
  intro tree tree' h
  obtain ⟨result, after⟩ := hx tree tree' h
  rw [run_bind, run_bind]
  generalize x.run tree = rx at result after
  generalize y.run tree' = ry at result after
  obtain ⟨r, t⟩ := rx
  obtain ⟨r', t'⟩ := ry
  obtain rfl : r = r' := result
  cases r with
  | error e => exact ⟨rfl, after⟩
  | ok b => exact hf b t t' after

theorem get_bind {f g : FileTree → Disk β}
    (hf : ∀ tree tree', Alike view tree tree' →
      ((f tree).run tree).1 = ((g tree').run tree').1 ∧
        Alike view ((f tree).run tree).2 ((g tree').run tree').2) :
    Agrees view (get >>= f) (get >>= g) := hf

theorem ite {c : Prop} [Decidable c] {x x' y y' : Disk β} (hx : Agrees view x x')
    (hy : Agrees view y y') : Agrees view (if c then x else y) (if c then x' else y') := by
  split
  · exact hx
  · exact hy

theorem mapM {f : γ → Disk β} (hf : ∀ c, Agrees view (f c) (f c)) (cs : List γ) :
    Agrees view (cs.mapM f) (cs.mapM f) := by
  induction cs with
  | nil => exact .pure []
  | cons c cs ih =>
    rw [List.mapM_cons]
    exact .bind (hf c) fun b => .bind ih fun bs => .pure _

theorem change {f g : FileTree → Except FileFault FileTree}
    (h : ∀ tree tree', Alike view tree tree' → Alike.Same view (f tree) (g tree')) :
    Agrees view (change f) (change g) := by
  intro tree tree' ha
  rw [run_change, run_change]
  have same := h tree tree' ha
  cases hf : f tree <;> cases hg : g tree' <;> rw [hf, hg] at same <;> cases same
  · exact ⟨rfl, ha⟩
  · next h => exact ⟨rfl, h⟩

theorem write (ht : Tells view) (path : String) {bytes bytes' : ByteArray}
    (hb : view (.file bytes) = view (.file bytes')) :
    Agrees view (write path bytes) (Disk.write path bytes') :=
  .change fun _ _ h => h.write ht path hb

theorem copy (source target : String) : Agrees id (copy source target) (Disk.copy source target) :=
  .bind (.looked fun _ _ h => h.read source) fun _ => .bind (.write tells_id _ rfl) fun _ =>
    .bind (.looked fun _ _ h => h.read source) fun _ => .write tells_id _ rfl

theorem makeDirectories (ht : Tells view) (fuel : Nat) (path : String) :
    Agrees view (makeDirectories fuel path) (Disk.makeDirectories fuel path) := by
  have present (path : String) (fault : FileFault) :
      Agrees view (do unless ← Disk.look (·.isDirectory path) do MonadExcept.throw (.file fault))
        (do unless ← Disk.look (·.isDirectory path) do MonadExcept.throw (.file fault)) :=
    .bind (.look fun _ _ h => h.isDirectory ht path) fun _ => .ite (.pure _) (.throw _)
  induction fuel generalizing path with
  | zero => exact .throw _
  | succ fuel ih =>
    unfold Disk.makeDirectories
    refine .ite (.pure _) (.get_bind fun tree tree' h => ?_)
    have same := h.makeDirectory ht path
    generalize tree.makeDirectory path = r at same
    generalize tree'.makeDirectory path = r' at same
    cases same with
    | ok h' => exact ⟨rfl, h'⟩
    | error fault =>
      cases fault with
      | notFound =>
        dsimp only
        cases Path.parent? path with
        | none => exact ⟨rfl, h⟩
        | some parent =>
          refine Agrees.bind (ih parent) (fun _ => .get_bind fun tree tree' h => ?_) tree tree' h
          have same := h.makeDirectory ht path
          generalize tree.makeDirectory path = r at same
          generalize tree'.makeDirectory path = r' at same
          cases same with
          | ok h' => exact ⟨rfl, h'⟩
          | error fault => exact present path fault tree tree' h
      | _ => exact present path _ tree tree' h

theorem makeDirectory (ht : Tells view) (path : String) :
    Agrees view (makeDirectory path) (Disk.makeDirectory path) :=
  makeDirectories ht _ path

end Agrees

end Disk

end FunctionApp
