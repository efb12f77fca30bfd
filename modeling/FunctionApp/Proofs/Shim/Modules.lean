import FunctionApp.Proofs.Files.Names
import FunctionApp.Proofs.Shim.Identifiers
import FunctionApp.Shim.Printer
import Mathlib.Data.List.Basic

/-!
# Generated modules

The first line of a module names its document, so that modules of different documents have different
texts, also where they have one name (`source_ne`). The index has a line for each module that declares
it by its name (`declaredNames_index`).
-/

namespace FunctionApp.GeneratedModule

open Text

variable {document other : String} {shims others : List Shim}

/-! ## The text of a module -/

/-- The text of a module has a quotation mark and a full stop after the name of its document. -/
theorem exists_toList_source (document : String) (shims : List Shim) :
    ∃ rest, (ofShims document shims).source.toList =
      "// Generated by fnforge from \x60".toList ++ (document.toList ++ '\x60' :: '.' :: rest) := by
  have lines : moduleBody (codeIdent document) shims ≠ [] := by simp [moduleBody]
  obtain ⟨first, later, hl⟩ := List.exists_cons_of_ne_nil lines
  have source : (ofShims document shims).source =
      moduleHeader document ++ "\n" ++ String.intercalate "\n" (first :: later) := by
    rw [← String.intercalate_cons_cons, ← hl, ofShims]
  have quoted : "\x60. Do not edit.".toList = '\x60' :: '.' :: " Do not edit.".toList := by decide
  refine ⟨" Do not edit.".toList ++
    ("\n".toList ++ (String.intercalate "\n" (first :: later)).toList), ?_⟩
  rw [source]
  unfold moduleHeader
  simp only [String.toList_append, List.append_assoc, quoted, List.cons_append]

/-- An identifier is longer than its name by an underscore before a digit or for no name at all. -/
theorem length_codeIdent (name : String) :
    (codeIdent name).toList.length = name.toList.length +
      if (name.toList.head?.map Char.isDigit).getD true then 1 else 0 := by
  cases hn : name.toList with
  | nil =>
    obtain rfl := String.toList_eq_nil_iff.1 hn
    rfl
  | cons c rest =>
    rw [toList_codeIdent hn, hn]
    cases hd : c.isDigit <;> simp [hd]

/-- No name of a document that is written has the identifier of the empty one and is read alike. -/
theorem ne_of_length_codeIdent {name : String} {rest rest' : List Char} (hn : name ≠ "")
    (hl : (codeIdent name).toList.length = 1) :
    name.toList ++ '\x60' :: '.' :: rest ≠ '\x60' :: '.' :: rest' := by
  intro e
  rw [length_codeIdent] at hl
  obtain ⟨c, more, hc⟩ := List.exists_cons_of_ne_nil (mt String.toList_eq_nil_iff.1 hn)
  rw [hc] at hl e
  obtain rfl : more = [] := List.eq_nil_of_length_eq_zero (by simp at hl; omega)
  cases (List.cons.inj (List.cons.inj e).2).1

/-- The module of another document has another text, even if it has the same name. -/
theorem source_ne (hne : document ≠ other) (hi : codeIdent document = codeIdent other) :
    (ofShims document shims).source ≠ (ofShims other others).source := by
  intro e
  obtain ⟨rest, hd⟩ := exists_toList_source document shims
  obtain ⟨rest', ho⟩ := exists_toList_source other others
  have texts : document.toList ++ '\x60' :: '.' :: rest = other.toList ++ '\x60' :: '.' :: rest' :=
    List.append_cancel_left (hd.symm.trans ((congrArg String.toList e).trans ho))
  by_cases hn : document = ""
  · subst hn
    exact ne_of_length_codeIdent hne.symm (congrArg (·.toList.length) hi).symm texts.symm
  by_cases hm : other = ""
  · subst hm
    exact ne_of_length_codeIdent hn (congrArg (·.toList.length) hi) texts
  -- Names that start with one character are equally long if their identifiers are.
  obtain ⟨c, more, hc⟩ := List.exists_cons_of_ne_nil (mt String.toList_eq_nil_iff.1 hn)
  obtain ⟨c', more', hc'⟩ := List.exists_cons_of_ne_nil (mt String.toList_eq_nil_iff.1 hm)
  have lengths := congrArg (·.toList.length) hi
  simp only [length_codeIdent] at lengths
  rw [hc, hc'] at texts lengths
  obtain ⟨rfl, _⟩ := List.cons.inj texts
  have same := (List.append_inj texts (Nat.add_right_cancel lengths)).1
  exact hne (String.toList_injective (hc.trans (same.trans hc'.symm)))

/-- No module has the text of an index. -/
theorem source_ne_index (modules : List GeneratedModule) :
    (ofShims document shims).source ≠ index modules := by
  intro e
  obtain ⟨rest, hd⟩ := exists_toList_source document shims
  have ofIndex : "// Generated by fnforge. Do not edit.\n".toList =
      "// Generated by fnforge".toList ++ '.' :: " Do not edit.\n".toList := by decide
  have ofModule : "// Generated by fnforge from \x60".toList =
      "// Generated by fnforge".toList ++ ' ' :: "from \x60".toList := by decide
  rw [e, ofModule, List.append_assoc] at hd
  unfold index at hd
  rw [String.toList_append, ofIndex, List.append_assoc] at hd
  have differ := (List.cons.inj (List.append_cancel_left hd)).1
  exact absurd differ (by decide)

/-! ## The index -/

/-- The name of the module that a line of an index declares, if it declares one. -/
def declaredName? (line : String) : Option String :=
  if "pub mod ".toList.isPrefixOf line.toList then
    some (String.ofList ((line.toList.drop 8).takeWhile (· ≠ ';')))
  else none

/-- The modules that an index declares. -/
def declaredNames (text : String) : List String :=
  (splitOnChar '\n' text).filterMap declaredName?

theorem declaredName?_declaration {name : String} (h : ';' ∉ name.toList) :
    declaredName? ("pub mod " ++ name ++ ";") = some name := by
  have line : ("pub mod " ++ name ++ ";").toList = "pub mod ".toList ++ (name.toList ++ [';']) := by
    simp [String.toList_append]
  rw [declaredName?, line, if_pos (List.isPrefixOf_iff_prefix.2 (List.prefix_append _ _))]
  change some (String.ofList ((name.toList ++ [';']).takeWhile (· ≠ ';'))) = some name
  rw [List.takeWhile_append_of_pos fun c hc => by simpa using ne_of_mem_of_not_mem hc h]
  simp

/-- The lines of declarations. -/
theorem splitOnChar_declarations {names : List String} (h : ∀ name ∈ names, '\n' ∉ name.toList) :
    splitOnChar '\n' (String.join (names.map fun name => "pub mod " ++ name ++ ";\n")) =
      names.map (fun name => "pub mod " ++ name ++ ";") ++ [""] := by
  induction names with
  | nil => rfl
  | cons name names ih =>
    obtain ⟨hn, h⟩ := List.forall_mem_cons.1 h
    have line : '\n' ∉ ("pub mod " ++ name ++ ";").toList := by
      simp [String.toList_append, hn]
    have cut : (String.join ((name :: names).map fun name => "pub mod " ++ name ++ ";\n")).toList =
        ("pub mod " ++ name ++ ";").toList ++
          '\n' :: (String.join (names.map fun name => "pub mod " ++ name ++ ";\n")).toList := by
      simp [String.toList_append]
    rw [splitOnChar, cut, pieces_append_cons, pieces_of_not_mem line, List.map_append]
    change [String.ofList _] ++ splitOnChar '\n' _ = _
    rw [ih h, String.ofList_toList]
    rfl

/-- **The index declares the modules**, in their order. -/
theorem declaredNames_index {modules : List GeneratedModule}
    (h : ∀ m ∈ modules, ∀ c ∈ m.name.toList, isNameChar c = true) :
    declaredNames (index modules) = modules.map (·.name) := by
  have others {c : Char} (hc : isNameChar c = false) : ∀ name ∈ modules.map (·.name),
      c ∉ name.toList := by
    refine List.forall_mem_map.2 fun m hm hin => ?_
    rw [h m hm c hin] at hc
    cases hc
  have header : "// Generated by fnforge. Do not edit.\n".toList =
      "// Generated by fnforge. Do not edit.".toList ++ ['\n'] := by decide
  have cut : splitOnChar '\n' (index modules) = "// Generated by fnforge. Do not edit." ::
      ((modules.map (·.name)).map (fun name => "pub mod " ++ name ++ ";") ++ [""]) := by
    rw [← splitOnChar_declarations (others rfl), List.map_map]
    unfold index
    rw [splitOnChar, String.toList_append, header, List.append_assoc]
    change (pieces '\n' (_ ++ '\n' :: _)).map String.ofList = _
    rw [pieces_append_cons, pieces_of_not_mem (by decide), List.map_append]
    rfl
  have declared : (modules.map (·.name)).filterMap
      (declaredName? ∘ fun name => "pub mod " ++ name ++ ";") = (modules.map (·.name)).map id :=
    List.filterMap_eq_map_iff_forall_eq_some.2 fun name hn =>
      declaredName?_declaration (others rfl name hn)
  have first : declaredName? "// Generated by fnforge. Do not edit." = none := by decide
  rw [declaredNames, cut, List.filterMap_cons, first, List.filterMap_append, List.filterMap_map,
    declared, List.map_id]
  exact List.append_nil _

end FunctionApp.GeneratedModule
