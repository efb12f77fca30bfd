import FunctionApp.App.Basic
import Mathlib.Data.List.Induction

/-!
# Which functions an app takes

Of functions that are offered one after the other an app takes those whose name is free
(`firstOfName`), and reports each of the others once (`laterOfName`). What it takes it keeps grouped
by document, in the order of the first function of each document (`grouped`). Functions whose
documents do not alternate are kept in the order in which they came (`functions_grouped`).
-/

namespace FunctionApp

namespace AppFunction

/-- The functions whose name is not taken, by one of the given names or by an earlier function. -/
def firstOfName (taken : List String) : List AppFunction → List AppFunction
  | [] => []
  | f :: rest =>
    if f.name ∈ taken then firstOfName taken rest else f :: firstOfName (f.name :: taken) rest

/-- The functions whose name is taken, by one of the given names or by an earlier function. -/
def laterOfName (taken : List String) : List AppFunction → List AppFunction
  | [] => []
  | f :: rest =>
    if f.name ∈ taken then f :: laterOfName taken rest else laterOfName (f.name :: taken) rest

attribute [grind =] firstOfName laterOfName

/-- The report of a function whose name is taken. -/
def nameTaken (f : AppFunction) : Diagnostic :=
  (Problem.duplicateFunction f.name).at f.location

theorem firstOfName_congr {taken taken' : List String} (h : ∀ n, n ∈ taken ↔ n ∈ taken')
    (fs : List AppFunction) : firstOfName taken fs = firstOfName taken' fs := by
  induction fs generalizing taken taken' with
  | nil => rfl
  | cons f fs ih =>
    have h' : ∀ n, n ∈ f.name :: taken ↔ n ∈ f.name :: taken' := by simp [h]
    simp only [firstOfName, h, ih h, ih h']

theorem laterOfName_congr {taken taken' : List String} (h : ∀ n, n ∈ taken ↔ n ∈ taken')
    (fs : List AppFunction) : laterOfName taken fs = laterOfName taken' fs := by
  induction fs generalizing taken taken' with
  | nil => rfl
  | cons f fs ih =>
    have h' : ∀ n, n ∈ f.name :: taken ↔ n ∈ f.name :: taken' := by simp [h]
    simp only [laterOfName, h, ih h, ih h']

theorem firstOfName_append (taken : List String) (fs gs : List AppFunction) :
    firstOfName taken (fs ++ gs) =
      firstOfName taken fs ++ firstOfName (taken ++ fs.map (·.name)) gs := by
  induction fs generalizing taken with
  | nil => simp [firstOfName]
  | cons f fs ih =>
    rw [List.cons_append, firstOfName, firstOfName]
    split
    · next hf =>
      rw [ih]
      congr 1
      exact firstOfName_congr (fun n => by simp; grind) gs
    · rw [ih, List.cons_append]
      congr 2
      exact firstOfName_congr (fun n => by simp; grind) gs

/-- Each function is either the first of its name or a later one. -/
theorem perm_firstOfName_laterOfName (taken : List String) (fs : List AppFunction) :
    (firstOfName taken fs ++ laterOfName taken fs).Perm fs := by
  induction fs generalizing taken with
  | nil => exact .nil
  | cons f fs ih =>
    rw [firstOfName, laterOfName]
    split
    · exact List.perm_middle.trans ((ih taken).cons f)
    · exact (ih (f.name :: taken)).cons f

theorem firstOfName_sublist (taken : List String) (fs : List AppFunction) :
    (firstOfName taken fs).Sublist fs := by
  induction fs generalizing taken with
  | nil => exact .slnil
  | cons f fs ih =>
    rw [firstOfName]
    split
    · exact (ih taken).cons f
    · exact (ih (f.name :: taken)).cons_cons f

/-- Without later functions of a name, all are first ones. -/
theorem firstOfName_eq_self {taken : List String} {fs : List AppFunction}
    (h : laterOfName taken fs = []) : firstOfName taken fs = fs := by
  have p := perm_firstOfName_laterOfName taken fs
  rw [h, List.append_nil] at p
  exact (firstOfName_sublist taken fs).eq_of_length p.length_eq

end AppFunction

open AppFunction

namespace App

/-! ## Groups -/

/-- Functions in groups by document. -/
def grouped (fs : List AppFunction) : List DocumentFunctions :=
  fs.foldl (fun docs f => insert f docs) []

/-- No document comes back after a function of another one. -/
def Contiguous (fs : List AppFunction) : Prop :=
  ∀ f g h, [f, g, h].Sublist fs → f.document = h.document → g.document = f.document

/-- Groups by document: none is empty, each holds functions of its own document, and no document
has two of them. -/
structure WellGrouped (docs : List DocumentFunctions) : Prop where
  nonempty : ∀ d ∈ docs, d.functions ≠ []
  own : ∀ d ∈ docs, ∀ f ∈ d.functions, f.document = d.document
  nodup : (docs.map (·.document)).Nodup

theorem Contiguous.sublist {fs gs : List AppFunction} (h : Contiguous gs) (s : fs.Sublist gs) :
    Contiguous fs :=
  fun f g k hs => h f g k (hs.trans s)

theorem flatMap_insert_perm (f : AppFunction) (docs : List DocumentFunctions) :
    ((insert f docs).flatMap (·.functions)).Perm (docs.flatMap (·.functions) ++ [f]) := by
  induction docs with
  | nil => exact .refl _
  | cons d docs ih =>
    rw [insert]
    split
    · simp only [List.flatMap_cons, List.append_assoc]
      exact .append_left _ List.perm_append_comm
    · simp only [List.flatMap_cons, List.append_assoc]
      exact ih.append_left _

theorem mem_insert_document {f : AppFunction} {docs : List DocumentFunctions} {name : String} :
    name ∈ (insert f docs).map (·.document) ↔
      name = f.document ∨ name ∈ docs.map (·.document) := by
  induction docs with
  | nil => simp [insert]
  | cons d docs ih =>
    rw [insert]
    split
    · next h => simp [h]
    · simp only [List.map_cons, List.mem_cons, ih]
      exact or_left_comm

namespace WellGrouped

theorem nil : WellGrouped [] := by
  refine ⟨?_, ?_, List.nodup_nil⟩ <;> intro d h <;> cases h

theorem tail {d : DocumentFunctions} {docs : List DocumentFunctions} (h : WellGrouped (d :: docs)) :
    WellGrouped docs :=
  ⟨fun e he => h.nonempty e (.tail _ he), fun e he => h.own e (.tail _ he),
    (List.nodup_cons.1 h.nodup).2⟩

/-- A function stands in the group of its document afterwards. -/
theorem insert {docs : List DocumentFunctions} (h : WellGrouped docs) (f : AppFunction) :
    WellGrouped (App.insert f docs) := by
  induction docs with
  | nil =>
    refine ⟨fun d hd => ?_, fun d hd => ?_, by simp [App.insert]⟩
    · obtain rfl := List.mem_singleton.1 hd
      simp
    · obtain rfl := List.mem_singleton.1 hd
      simp
  | cons d docs ih =>
    rw [App.insert]
    split
    · next hf =>
      refine ⟨fun e he => ?_, fun e he => ?_, h.nodup⟩
      · rcases List.mem_cons.1 he with rfl | he
        · simp
        · exact h.nonempty e (.tail _ he)
      · rcases List.mem_cons.1 he with rfl | he
        · intro g hg
          rcases List.mem_append.1 hg with hg | hg
          · exact h.own d (.head _) g hg
          · obtain rfl := List.mem_singleton.1 hg
            exact hf.symm
        · exact h.own e (.tail _ he)
    · next hf =>
      have hi := ih h.tail
      refine ⟨fun e he => ?_, fun e he => ?_, ?_⟩
      · rcases List.mem_cons.1 he with rfl | he
        · exact h.nonempty _ (.head _)
        · exact hi.nonempty e he
      · rcases List.mem_cons.1 he with rfl | he
        · exact h.own _ (.head _)
        · exact hi.own e he
      · rw [List.map_cons, List.nodup_cons, mem_insert_document]
        exact ⟨fun e => e.elim hf (List.nodup_cons.1 h.nodup).1, hi.nodup⟩

/-- A function of the last document, or of a new one, comes last. -/
theorem flatMap_insert {docs : List DocumentFunctions} (h : WellGrouped docs) {f : AppFunction}
    (hc : Contiguous (docs.flatMap (·.functions) ++ [f])) :
    (App.insert f docs).flatMap (·.functions) = docs.flatMap (·.functions) ++ [f] := by
  induction docs with
  | nil => rfl
  | cons d docs ih =>
    rw [App.insert]
    split
    · next hf =>
      cases docs with
      | nil => simp
      | cons e docs =>
        -- the group of `f` is not the last one, so that its document would come back
        obtain ⟨g, hg⟩ := List.exists_mem_of_ne_nil _ (h.nonempty d (.head _))
        obtain ⟨k, hk⟩ := List.exists_mem_of_ne_nil _ (h.nonempty e (.tail _ (.head _)))
        have s : [g, k, f].Sublist ((d :: e :: docs).flatMap (·.functions) ++ [f]) := by
          simp only [List.flatMap_cons, List.append_assoc]
          refine (List.singleton_sublist.2 hg).append ((List.singleton_sublist.2 hk).append ?_)
          exact List.sublist_append_right _ _
        have hgd := h.own d (.head _) g hg
        have hke := h.own e (.tail _ (.head _)) k hk
        have hkd : e.document = d.document := by
          rw [← hke, hc g k f s (by rw [hgd, hf]), hgd]
        exact absurd (by simp [hkd]) (List.nodup_cons.1 h.nodup).1
    · simp only [List.flatMap_cons, List.append_assoc] at hc ⊢
      rw [ih h.tail (hc.sublist (List.sublist_append_right _ _))]

end WellGrouped

theorem grouped_append (fs gs : List AppFunction) :
    grouped (fs ++ gs) = gs.foldl (fun docs f => insert f docs) (grouped fs) :=
  List.foldl_append

theorem grouped_concat (fs : List AppFunction) (f : AppFunction) :
    grouped (fs ++ [f]) = insert f (grouped fs) :=
  grouped_append fs [f]

theorem wellGrouped_grouped (fs : List AppFunction) : WellGrouped (grouped fs) := by
  induction fs using List.reverseRecOn with
  | nil => exact .nil
  | append_singleton fs f ih =>
    rw [grouped_concat]
    exact ih.insert f

/-- Groups hold what was put into them. -/
theorem functions_grouped_perm (fs : List AppFunction) :
    ((grouped fs).flatMap (·.functions)).Perm fs := by
  induction fs using List.reverseRecOn with
  | nil => exact .nil
  | append_singleton fs f ih =>
    rw [grouped_concat]
    exact (flatMap_insert_perm f _).trans (ih.append_right _)

/-- **Functions whose documents do not alternate keep their order** in groups. -/
theorem functions_grouped {fs : List AppFunction} (h : Contiguous fs) :
    (grouped fs).flatMap (·.functions) = fs := by
  induction fs using List.reverseRecOn with
  | nil => rfl
  | append_singleton fs f ih =>
    have hfs := ih (h.sublist (List.sublist_append_left _ _))
    rw [grouped_concat, (wellGrouped_grouped fs).flatMap_insert (by rwa [hfs]), hfs]

/-- Functions that are collected from parts of different documents do not alternate. -/
theorem contiguous_flatMap {α : Type} {parts : List α} {document : α → String}
    {functions : α → List AppFunction} (hn : (parts.map document).Nodup)
    (ho : ∀ p ∈ parts, ∀ f ∈ functions p, f.document = document p) :
    Contiguous (parts.flatMap functions) := by
  induction parts with
  | nil =>
    intro f g h s
    cases s
  | cons p parts ih =>
    obtain ⟨hp, hn⟩ := List.nodup_cons.1 hn
    have rest := ih hn fun q hq => ho q (.tail _ hq)
    have apart : ∀ f ∈ parts.flatMap functions, f.document ≠ document p := by
      intro f hf e
      obtain ⟨q, hq, hf⟩ := List.mem_flatMap.1 hf
      exact hp (List.mem_map.2 ⟨q, hq, by rw [← ho q (.tail _ hq) f hf, e]⟩)
    intro f g h s hfh
    rw [List.flatMap_cons] at s
    obtain ⟨l, r, e, hl, hr⟩ := List.sublist_append_iff.1 s
    have own : ∀ k ∈ l, k.document = document p := fun k hk => ho p (.head _) k (hl.subset hk)
    -- where the three are cut between the functions of `p` and those of later parts
    rcases l with _ | ⟨a, _ | ⟨b, _ | ⟨c, l⟩⟩⟩
    · exact rest f g h (by rwa [e]) hfh
    · obtain ⟨rfl, rfl⟩ := List.cons.inj e
      exact absurd (hfh ▸ own f (.head _)) (apart h (hr.subset (.tail _ (.head _))))
    · obtain ⟨rfl, e₁⟩ := List.cons.inj e
      obtain ⟨rfl, rfl⟩ := List.cons.inj e₁
      exact absurd (hfh ▸ own f (.head _)) (apart h (hr.subset (.head _)))
    · obtain ⟨rfl, e₁⟩ := List.cons.inj e
      obtain ⟨rfl, _⟩ := List.cons.inj e₁
      rw [own f (.head _), own g (.tail _ (.head _))]

end App

end FunctionApp
