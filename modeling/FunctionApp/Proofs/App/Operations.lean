import FunctionApp.Proofs.App.Registration
import Mathlib.Data.List.Find
import Mathlib.Data.List.Nodup

/-!
# Putting an app together

An app is put together by adding functions and by reporting what is wrong. Whatever is done to it and
in whatever order, the names that it keeps are those of the functions in its groups (`Consistent`):
no step breaks that (`Consistent.apply`), and so no run does. A name therefore belongs for good to the
function that was added with it first (`function?_after`), and what was reported stays where it is.
-/

namespace FunctionApp

/-- What is done to an app while it is put together. -/
inductive Operation where
  | add (function : AppFunction)
  | report (diagnostics : Diagnostics)

namespace Operation

/-- The functions that are added, taken or not, in their order. -/
def offered (ops : List Operation) : List AppFunction :=
  ops.filterMap fun
    | .add f => some f
    | .report _ => none

/-- The diagnostics that are reported, in their order. -/
def reported (ops : List Operation) : Diagnostics :=
  ops.flatMap fun
    | .add _ => []
    | .report ds => ds

end Operation

open AppFunction Operation

namespace App

def apply (app : App) : Operation → App
  | .add f => app.add f
  | .report ds => app.report ds

/-- The app after operations on an empty one. -/
def after (ops : List Operation) : App := ops.foldl apply empty

/-- The functions of one document. -/
def ofDocument (document : String) (docs : List DocumentFunctions) : List AppFunction :=
  ((docs.find? fun d => d.document == document).map (·.functions)).getD []

/-- Documents with a function appended to its own, which is a new one at the end if there was none.
All other documents are as they were. -/
structure Appended (f : AppFunction) (docs docs' : List DocumentFunctions) : Prop where
  own : ofDocument f.document docs' = ofDocument f.document docs ++ [f]
  others : ∀ document, document ≠ f.document → ofDocument document docs' = ofDocument document docs
  documents : docs'.map (·.document) =
    if f.document ∈ docs.map (·.document) then docs.map (·.document)
    else docs.map (·.document) ++ [f.document]

/-- The names that are kept are those of the functions, each of which has one of its own and stands in
the group of its document. -/
structure Consistent (app : App) : Prop where
  names : app.names.Perm (app.functions.map (·.name))
  nodup : app.names.Nodup
  grouped : WellGrouped app.documents

variable {app : App} {f : AppFunction} {docs : List DocumentFunctions} {ops : List Operation}
  {name : String}

/-! ## Groups -/

theorem ofDocument_cons (document : String) (d : DocumentFunctions)
    (docs : List DocumentFunctions) :
    ofDocument document (d :: docs) =
      if d.document = document then d.functions else ofDocument document docs := by
  unfold ofDocument
  by_cases h : d.document = document <;> simp [h]

theorem ofDocument_insert (f : AppFunction) (docs : List DocumentFunctions) (document : String) :
    ofDocument document (insert f docs) =
      if document = f.document then ofDocument document docs ++ [f]
      else ofDocument document docs := by
  induction docs with
  | nil =>
    rw [insert, ofDocument_cons]
    by_cases h : document = f.document
    · simp [h, ofDocument]
    · simp [h, Ne.symm h]
  | cons d docs ih =>
    rw [insert]
    split
    · next hd =>
      rw [ofDocument_cons, ofDocument_cons, hd]
      by_cases h : document = f.document
      · simp [h]
      · simp [h, Ne.symm h]
    · next hd =>
      rw [ofDocument_cons, ofDocument_cons, ih]
      by_cases h : d.document = document
      · have other : document ≠ f.document := fun e => hd (h.trans e)
        simp [h, other]
      · simp [h]

theorem documents_insert (f : AppFunction) (docs : List DocumentFunctions) :
    (insert f docs).map (·.document) =
      if f.document ∈ docs.map (·.document) then docs.map (·.document)
      else docs.map (·.document) ++ [f.document] := by
  induction docs with
  | nil => simp [insert]
  | cons d docs ih =>
    rw [insert]
    by_cases hd : d.document = f.document
    · simp [hd]
    · rw [if_neg hd, List.map_cons, ih]
      simp only [List.map_cons, List.mem_cons, Ne.symm hd, false_or]
      split
      · rfl
      · rfl

theorem appended_insert (f : AppFunction) (docs : List DocumentFunctions) :
    Appended f docs (insert f docs) where
  own := by rw [ofDocument_insert, if_pos rfl]
  others document h := by rw [ofDocument_insert, if_neg h]
  documents := documents_insert f docs

/-! ## What a step keeps -/

theorem add_of_mem (h : f.name ∈ app.names) : app.add f = app.report [nameTaken f] :=
  if_pos h

theorem add_of_not_mem (h : f.name ∉ app.names) :
    app.add f = { app with
      documents := insert f app.documents
      names := app.names ++ [f.name] } :=
  if_neg h

/-- A function whose name is free comes to those that are there. -/
theorem functions_add_perm (h : f.name ∉ app.names) :
    (app.add f).functions.Perm (app.functions ++ [f]) := by
  rw [add_of_not_mem h]
  exact flatMap_insert_perm f app.documents

theorem consistent_empty : Consistent empty := ⟨.nil, List.nodup_nil, .nil⟩

namespace Consistent

theorem mem_names (h : Consistent app) : name ∈ app.names ↔ name ∈ app.functions.map (·.name) :=
  h.names.mem_iff

theorem report (h : Consistent app) (ds : Diagnostics) : Consistent (app.report ds) :=
  ⟨h.names, h.nodup, h.grouped⟩

theorem add (h : Consistent app) (f : AppFunction) : Consistent (app.add f) := by
  by_cases taken : f.name ∈ app.names
  · rw [add_of_mem taken]
    exact h.report _
  · have functions := functions_add_perm taken
    have names : (app.add f).names = app.names ++ [f.name] := by rw [add_of_not_mem taken]
    refine ⟨?_, ?_, ?_⟩
    · rw [names]
      refine .trans ?_ (functions.map _).symm
      rw [List.map_append]
      exact h.names.append_right [f.name]
    · rw [names]
      refine List.nodup_append.2 ⟨h.nodup, List.nodup_singleton _, ?_⟩
      intro a ha b hb e
      rw [e, List.mem_singleton.1 hb] at ha
      exact taken ha
    · rw [add_of_not_mem taken]
      exact h.grouped.insert f

/-- **No step breaks an app.** -/
theorem apply (h : Consistent app) (op : Operation) : Consistent (app.apply op) := by
  cases op with
  | add f => exact h.add f
  | report ds => exact h.report ds

/-- A name is taken when a function has it. -/
theorem isSome_function? (h : Consistent app) :
    (app.function? name).isSome = true ↔ name ∈ app.names := by
  rw [h.mem_names]
  simp [function?, List.find?_isSome]

/-- What a name belongs to when a function comes whose name is free. -/
theorem function?_add (h : Consistent app) (free : f.name ∉ app.names) (name : String) :
    (app.add f).function? name = (app.function? name).or ([f].find? fun g => g.name == name) := by
  have perm := functions_add_perm free
  have nodup : ((app.add f).functions.map (·.name)).Nodup := (h.add f).names.nodup_iff.1 (h.add f).nodup
  rw [function?, function?, ← List.find?_append]
  refine List.find?_eq_find?_of_perm perm ?_
  rintro g ⟨hg, eg⟩ g' ⟨hg', eg'⟩
  refine List.inj_on_of_nodup_map nodup hg hg' ?_
  rw [eq_of_beq eg, eq_of_beq eg']

end Consistent

/-! ## Runs -/

theorem after_append (ops more : List Operation) :
    after (ops ++ more) = more.foldl apply (after ops) :=
  List.foldl_append

theorem after_concat (ops : List Operation) (op : Operation) :
    after (ops ++ [op]) = (after ops).apply op :=
  after_append ops [op]

/-- An app is consistent after any operations. -/
theorem consistent_after (ops : List Operation) : Consistent (after ops) := by
  induction ops using List.reverseRecOn with
  | nil => exact consistent_empty
  | append_singleton ops op ih =>
    rw [after_concat]
    exact ih.apply op

/-- **A name belongs to the function that was added with it first**, if there was one. -/
theorem function?_after (ops : List Operation) (name : String) :
    (after ops).function? name = (offered ops).find? fun f => f.name == name := by
  induction ops using List.reverseRecOn with
  | nil => rfl
  | append_singleton ops op ih =>
    have consistent := consistent_after ops
    rw [after_concat]
    cases op with
    | report ds =>
      have same : offered (ops ++ [.report ds]) = offered ops := by simp [offered]
      rw [same, ← ih]
      rfl
    | add f =>
      have more : offered (ops ++ [.add f]) = offered ops ++ [f] := by simp [offered]
      rw [more, List.find?_append, ← ih]
      show ((after ops).add f).function? name = _
      by_cases taken : f.name ∈ (after ops).names
      · rw [add_of_mem taken]
        show (after ops).function? name = _
        -- the function that has the name already comes before `f`
        by_cases hn : f.name = name
        · obtain ⟨g, hg⟩ := Option.isSome_iff_exists.1 (consistent.isSome_function?.2 (hn ▸ taken))
          rw [hg, Option.some_or]
        · have other : ([f].find? fun g => g.name == name) = none := by simp [hn]
          rw [other, Option.or_none]
      · exact consistent.function?_add taken name

/-- What was reported stays, and what is reported later comes behind it. -/
theorem diagnostics_apply (app : App) (op : Operation) :
    ∃ more, (app.apply op).diagnostics = app.diagnostics ++ more ∧
      (reported [op]).Sublist more := by
  cases op with
  | report ds => exact ⟨ds, rfl, by simp [reported]⟩
  | add f =>
    by_cases taken : f.name ∈ app.names
    · refine ⟨[nameTaken f], ?_, by simp [reported]⟩
      show (app.add f).diagnostics = _
      rw [add_of_mem taken]
      rfl
    · refine ⟨[], ?_, by simp [reported]⟩
      show (app.add f).diagnostics = _
      rw [add_of_not_mem taken, List.append_nil]

theorem diagnostics_foldl (app : App) (ops : List Operation) :
    ∃ more, (ops.foldl apply app).diagnostics = app.diagnostics ++ more ∧
      (reported ops).Sublist more := by
  induction ops generalizing app with
  | nil => exact ⟨[], (List.append_nil _).symm, .slnil⟩
  | cons op ops ih =>
    obtain ⟨first, e, s⟩ := diagnostics_apply app op
    obtain ⟨rest, e', s'⟩ := ih (app.apply op)
    refine ⟨first ++ rest, ?_, ?_⟩
    · rw [List.foldl_cons, e', e, List.append_assoc]
    · have parts : reported (op :: ops) = reported [op] ++ reported ops := by simp [reported]
      rw [parts]
      exact s.append s'

/-- **An app is consistent under any run of operations.** No two functions have one name, there are as
many of them as names are taken, each stands in the one group of its document, and a name leads to
the function that was added with it first. A function whose name is taken, in whichever document, is
reported once and leaves everything else as it was; any other one becomes the last of its document
without a report. Diagnostics stay in the order in which they came. -/
theorem consistent_under_operations (ops : List Operation) :
    ((after ops).functions.map (·.name)).Nodup ∧
    (after ops).functionCount = (after ops).functions.length ∧
    (((after ops).documents.map (·.document)).Nodup ∧
      ∀ d ∈ (after ops).documents, ∀ f ∈ d.functions, f.document = d.document) ∧
    (∀ name, (after ops).function? name = (offered ops).find? fun f => f.name == name) ∧
    (∀ f, f.name ∈ (after ops).functions.map (·.name) →
      (after (ops ++ [.add f])).documents = (after ops).documents ∧
      (after (ops ++ [.add f])).names = (after ops).names ∧
      (after (ops ++ [.add f])).diagnostics =
        (after ops).diagnostics ++ [(Problem.duplicateFunction f.name).at f.location]) ∧
    (∀ f, f.name ∉ (after ops).functions.map (·.name) →
      Appended f (after ops).documents (after (ops ++ [.add f])).documents ∧
      (after (ops ++ [.add f])).names = (after ops).names ++ [f.name] ∧
      (after (ops ++ [.add f])).diagnostics = (after ops).diagnostics) ∧
    (∀ more, (after ops).diagnostics <+: (after (ops ++ more)).diagnostics) ∧
    (reported ops).Sublist (after ops).diagnostics := by
  have consistent := consistent_after ops
  refine ⟨consistent.names.nodup_iff.1 consistent.nodup, ?_,
    ⟨consistent.grouped.nodup, consistent.grouped.own⟩, function?_after ops, fun f taken => ?_,
    fun f free => ?_, fun more => ?_, ?_⟩
  · rw [functionCount, consistent.names.length_eq, List.length_map]
  · have step : after (ops ++ [.add f]) = (after ops).report [nameTaken f] :=
      (after_concat ops _).trans (add_of_mem (consistent.mem_names.2 taken))
    rw [step]
    exact ⟨rfl, rfl, rfl⟩
  · have step := (after_concat ops (.add f)).trans
      (add_of_not_mem fun taken => free (consistent.mem_names.1 taken))
    rw [step]
    exact ⟨appended_insert f _, rfl, rfl⟩
  · obtain ⟨rest, e, _⟩ := diagnostics_foldl (after ops) more
    rw [after_append, e]
    exact List.prefix_append _ _
  · obtain ⟨rest, e, s⟩ := diagnostics_foldl empty ops
    rw [after, e]
    exact s

/-- A function of a document without bindings other than a timer. -/
def timerFunction (document name : String) : AppFunction where
  name := name
  document := document
  location := .startOf document
  trigger := .make .timerTrigger .in_ "timer"
  others := []
  shim := ⟨name, name, []⟩

theorem consistent_under_operations_two_documents :
    let ops : List Operation := [.add (timerFunction "a" "tick"), .report [],
      .add (timerFunction "b" "tock")]
    "tick" ∈ (after ops).functions.map (·.name) ∧
    (after (ops ++ [.add (timerFunction "b" "tick")])).documents = (after ops).documents ∧
    (after (ops ++ [.add (timerFunction "b" "tick")])).diagnostics =
      [(Problem.duplicateFunction "tick").at (.startOf "b")] ∧
    "tack" ∉ (after ops).functions.map (·.name) ∧
    Appended (timerFunction "a" "tack") (after ops).documents
      (after (ops ++ [.add (timerFunction "a" "tack")])).documents ∧
    ((after ops).function? "tick").map (·.document) = some "a" := by
  intro ops
  have run := consistent_under_operations ops
  have taken : "tick" ∈ (after ops).functions.map (·.name) := by decide
  have free : "tack" ∉ (after ops).functions.map (·.name) := by decide
  have refused := run.2.2.2.2.1 (timerFunction "b" "tick") taken
  exact ⟨taken, refused.1, refused.2.2, free,
    (run.2.2.2.2.2.1 (timerFunction "a" "tack") free).1,
    congrArg (Option.map (·.document)) (run.2.2.2.1 "tick")⟩

end App

end FunctionApp
