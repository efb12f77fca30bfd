import FunctionApp.Proofs.App.Identifiers
import FunctionApp.Proofs.Build.ModuleFiles
import FunctionApp.Proofs.Text.Split

/-!
# What the name of a document can do to its module

The name of a document stands in the comment on the first line of its module as it is. A line feed in
it ends the comment, and what stands behind it in the name is code (`laterText_source`). So two
documents with the same shims and one identifier have the same lines after the first one if and only
if their names have (`later_lines_agree_iff`).
-/

namespace FunctionApp

namespace Text

/-! ## The text behind the first line -/

theorem cutFirst_append_cons {sep : Char} {before : List Char} (h : sep ∉ before)
    (after : List Char) : cutFirst sep (before ++ sep :: after) = some (before, after) := by
  induction before with
  | nil => simp [cutFirst]
  | cons c before ih =>
    have hc : c ≠ sep := (List.ne_of_not_mem_cons h).symm
    rw [List.cons_append, cutFirst, if_neg hc, ih (List.not_mem_of_not_mem_cons h)]
    rfl

theorem cutFirst_eq_none_iff {sep : Char} {cs : List Char} : cutFirst sep cs = none ↔ sep ∉ cs := by
  induction cs with
  | nil => simp [cutFirst]
  | cons c cs ih =>
    rw [cutFirst]
    split
    · next hc => simp [hc]
    · next hc => simp [ih, Ne.symm hc]

/-- The text behind the first line of a text, if there is a further line. -/
def laterText (text : String) : Option (List Char) := (cutFirst '\n' text.toList).map Prod.snd

theorem laterText_eq_none_iff {text : String} : laterText text = none ↔ '\n' ∉ text.toList := by
  rw [laterText, Option.map_eq_none_iff, cutFirst_eq_none_iff]

theorem laterText_of_not_mem {text line : String} (h : '\n' ∉ line.toList) {later : List Char}
    (ht : text.toList = line.toList ++ '\n' :: later) : laterText text = some later := by
  rw [laterText, ht, cutFirst_append_cons h]
  rfl

example : laterText "shop\n// shop" = some "// shop".toList := by decide +kernel

theorem eq_append_of_laterText {text : String} {later : List Char}
    (h : laterText text = some later) :
    ∃ line, text.toList = line ++ '\n' :: later ∧ '\n' ∉ line := by
  obtain ⟨⟨line, _⟩, hc, rfl⟩ := Option.map_eq_some_iff.1 h
  exact ⟨line, eq_append_of_cutFirst hc⟩

end Text

open Text

namespace GeneratedModule

variable {document other : String} {shims : List Shim}

/-! ## The text behind the first line of a module -/

/-- The text of the lines of a module after its header. It depends on no name of a document but
through the identifier of the module. -/
def bodyText (module_ : String) (shims : List Shim) : List Char :=
  (String.intercalate "\n" (moduleBody module_ shims)).toList

/-- What stands behind the name of its document in the header of a module. -/
def headerEnd : List Char := "\x60. Do not edit.".toList

theorem toList_source (document : String) (shims : List Shim) :
    (ofShims document shims).source.toList =
      (moduleHeader document).toList ++ '\n' :: bodyText (codeIdent document) shims := by
  have lines : moduleBody (codeIdent document) shims ≠ [] := by simp [moduleBody]
  obtain ⟨first, later, hl⟩ := List.exists_cons_of_ne_nil lines
  rw [ofShims, bodyText, hl, String.intercalate_cons_cons, String.toList_append,
    String.toList_append, List.append_assoc]
  rfl

theorem toList_moduleHeader (document : String) :
    (moduleHeader document).toList =
      "// Generated by fnforge from \x60".toList ++ (document.toList ++ headerEnd) := by
  unfold moduleHeader headerEnd
  simp only [String.toList_append, List.append_assoc]

/-- Behind the first line of a module stand the later lines of its document's name, if it has any,
with the end of the header, and then its body. -/
theorem laterText_source (document : String) (shims : List Shim) :
    laterText (ofShims document shims).source =
      some (((laterText document).map (· ++ headerEnd ++ ['\n'])).getD [] ++
        bodyText (codeIdent document) shims) := by
  have ending : '\n' ∉ headerEnd := by decide
  cases hd : laterText document with
  | none =>
    have header : '\n' ∉ (moduleHeader document).toList := by
      rw [toList_moduleHeader]
      simp [ending, laterText_eq_none_iff.1 hd]
    exact laterText_of_not_mem header (toList_source document shims)
  | some later =>
    obtain ⟨line, hl, hn⟩ := eq_append_of_laterText hd
    have first : '\n' ∉ ("// Generated by fnforge from \x60" ++ String.ofList line).toList := by
      rw [String.toList_append, String.toList_ofList]
      simp [hn]
    refine laterText_of_not_mem first ?_
    rw [toList_source, toList_moduleHeader, hl, String.toList_append, String.toList_ofList]
    simp

theorem laterText_source_eq_iff (same : codeIdent document = codeIdent other) :
    laterText (ofShims document shims).source = laterText (ofShims other shims).source ↔
      laterText document = laterText other := by
  rw [laterText_source, laterText_source, same, Option.some_inj, List.append_left_inj]
  cases laterText document <;> cases laterText other <;> simp

end GeneratedModule

namespace DocumentFunctions

variable {d e : DocumentFunctions}

/-- **What the name of a document can do to its module.** Two documents with the same shims whose
names have one identifier have the same lines after the first one if and only if the texts behind the
first lines of their names agree. The header of a document whose name has no line feed is one line,
and behind it stands what the identifier and the shims alone make. -/
theorem later_lines_agree_iff (shims : d.functions.map (·.shim) = e.functions.map (·.shim))
    (same : codeIdent d.document = codeIdent e.document) :
    (laterText d.module_.source = laterText e.module_.source ↔
      laterText d.document = laterText e.document) ∧
    ('\n' ∉ d.document.toList → laterText d.module_.source =
      some (GeneratedModule.bodyText (codeIdent e.document) (e.functions.map (·.shim)))) := by
  unfold module_
  refine ⟨?_, fun plain => ?_⟩
  · rw [shims]
    exact GeneratedModule.laterText_source_eq_iff same
  · rw [GeneratedModule.laterText_source, laterText_eq_none_iff.2 plain, same, shims]
    rfl

/-- A program with one document of a name, and in it an HTTP service with one resource. -/
def documentProgram (name : String) : Program :=
  { App.pathsProgram [("listOrders", ["orders"])] with
    documents := (App.pathsProgram [("listOrders", ["orders"])]).documents.map
      ({ · with name := name }) }

/-- The one document of its app. -/
def ofName (name : String) : DocumentFunctions :=
  (App.analyze (documentProgram name) []).documents.headD ⟨name, []⟩

theorem later_lines_agree_shop :
    ((ofName "shop-1").functions.map (·.name) = ["get-orders"] ∧
      (ofName "shop-1").functions.map (·.shim) = (ofName "shop_1").functions.map (·.shim) ∧
      codeIdent "shop-1" = codeIdent "shop_1") ∧
    laterText (ofName "shop-1").module_.source = laterText (ofName "shop_1").module_.source := by
  have shims :
      (ofName "shop-1").functions.map (·.shim) = (ofName "shop_1").functions.map (·.shim) := by
    decide +kernel
  have names : (ofName "shop-1").document = "shop-1" ∧ (ofName "shop_1").document = "shop_1" := by
    decide +kernel
  have same : codeIdent "shop-1" = codeIdent "shop_1" := by decide +kernel
  refine ⟨⟨by decide +kernel, shims, same⟩, ?_⟩
  refine (later_lines_agree_iff shims (by rw [names.1, names.2, same])).1.2 ?_
  rw [names.1, names.2]
  decide +kernel

/-- A name that ends the header of its module and goes on as code. -/
def leavingName : String := "main\npub fn extra() \x7b\x7d //"

/-- A name with the same identifier that stays in the header. -/
def stayingName : String := "main_pub_fn_extra________"

/-- Nothing is reported of the name that leaves the header, and the second line of its module is the
code in it. -/
theorem header_left_by_name :
    (App.analyze (documentProgram leavingName) []).diagnostics = [] ∧
      (ofName leavingName).functions.map (·.shim) = (ofName stayingName).functions.map (·.shim) ∧
      codeIdent (ofName leavingName).document = codeIdent (ofName stayingName).document ∧
      (∃ rest, laterText (ofName leavingName).module_.source =
        some ("pub fn extra() \x7b\x7d //\x60. Do not edit.\n".toList ++ rest)) ∧
      laterText (ofName leavingName).module_.source ≠
        laterText (ofName stayingName).module_.source := by
  have shims : (ofName leavingName).functions.map (·.shim) =
      (ofName stayingName).functions.map (·.shim) := by
    decide +kernel
  have names : (ofName leavingName).document = leavingName ∧
      (ofName stayingName).document = stayingName := by
    decide +kernel
  have same : codeIdent leavingName = codeIdent stayingName := by decide +kernel
  have code : laterText leavingName = some "pub fn extra() \x7b\x7d //".toList := by decide
  have none : laterText stayingName = none := by decide
  have line : "pub fn extra() \x7b\x7d //".toList ++ GeneratedModule.headerEnd ++ ['\n'] =
      "pub fn extra() \x7b\x7d //\x60. Do not edit.\n".toList := by
    decide
  refine ⟨by decide +kernel, shims, by rw [names.1, names.2, same], ?_, ?_⟩
  · unfold module_
    rw [GeneratedModule.laterText_source, names.1, code, Option.map_some, line]
    exact ⟨_, rfl⟩
  · unfold module_
    rw [shims, names.1, names.2, Ne, GeneratedModule.laterText_source_eq_iff same, code, none]
    exact Option.some_ne_none _

end DocumentFunctions

end FunctionApp
