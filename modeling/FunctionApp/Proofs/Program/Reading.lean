import FunctionApp.Program.Reader
import FunctionApp.Proofs.Results
import FunctionApp.Proofs.Shim.Identifiers

/-!
# What a program was read from

Every function of a service of a program was read from one that is written in a service of the same
document (`exists_written_function`). One that is written without a name is named for its accessor and
the literal segments of its path, and has the identifier of these as they are written
(`codeIdent_of_readFunction`).
-/

namespace FunctionApp

/-- What a list of results consists of comes from its members. -/
theorem exists_of_mem_mapM {ε α β : Type} {f : α → Except ε β} {l : List α} {ys : List β}
    (h : l.mapM f = .ok ys) {y : β} (hy : y ∈ ys) : ∃ x ∈ l, f x = .ok y := by
  induction l generalizing ys with
  | nil =>
    cases h
    cases hy
  | cons x l ih =>
    rw [List.mapM_cons] at h
    obtain ⟨b, hb, h⟩ := bind_eq_ok.1 h
    obtain ⟨bs, hbs, e⟩ := bind_eq_ok.1 h
    cases e
    rcases List.mem_cons.1 hy with rfl | hy
    · exact ⟨x, .head _, hb⟩
    · obtain ⟨x', hx, hf⟩ := ih hbs hy
      exact ⟨x', .tail _ hx, hf⟩

namespace Program

variable {program : Program} {written : Written.Program} {document : Document} {service : Service}
  {handler : Function}

theorem exists_written_document (h : ofWritten written = .ok program)
    (hd : document ∈ program.documents) : ∃ w ∈ written.documents, readDocument w = .ok document := by
  unfold ofWritten at h
  obtain ⟨types, -, h⟩ := bind_eq_ok.1 h
  obtain ⟨documents, read, h⟩ := bind_eq_ok.1 h
  cases h
  exact exists_of_mem_mapM read hd

theorem exists_written_service {w : Written.Document} (h : readDocument w = .ok document)
    (hs : service ∈ document.services) :
    document.name = w.name ∧ ∃ s ∈ w.services, readService w.name s = .ok service := by
  unfold readDocument at h
  obtain ⟨services, read, h⟩ := bind_eq_ok.1 h
  obtain ⟨functions, -, h⟩ := bind_eq_ok.1 h
  cases h
  exact ⟨rfl, exists_of_mem_mapM read hs⟩

theorem exists_written_handler {name : String} {w : Written.Service}
    (h : readService name w = .ok service) (hf : handler ∈ service.functions) :
    ∃ f ∈ w.functions, readFunction name .remote f = .ok handler := by
  unfold readService at h
  dsimp only at h
  -- The listener is read in one of three ways, and the rest as before.
  split at h
  all_goals
    obtain ⟨listener, -, h⟩ := bind_eq_ok.1 h
    obtain ⟨functions, read, h⟩ := bind_eq_ok.1 h
    obtain ⟨annotations, -, h⟩ := bind_eq_ok.1 h
    cases h
    exact exists_of_mem_mapM read hf

/-- **A function of a service was read** from one that is written in a service of its document. -/
theorem exists_written_function (h : ofWritten written = .ok program)
    (hd : document ∈ program.documents) (hs : service ∈ document.services)
    (hf : handler ∈ service.functions) :
    ∃ d ∈ written.documents, ∃ s ∈ d.services, ∃ f ∈ s.functions,
      d.name = document.name ∧ readFunction d.name .remote f = .ok handler := by
  obtain ⟨d, hd, read⟩ := exists_written_document h hd
  obtain ⟨name, s, hs, readS⟩ := exists_written_service read hs
  obtain ⟨f, hf, readF⟩ := exists_written_handler readS hf
  exact ⟨d, hd, s, hs, f, hf, name.symm, readF⟩

/-! ## Names that are left out -/

theorem name_of_readFunction {name : String} {default : Qualifier} {w : Written.Function}
    (h : readFunction name default w = .ok handler) (hn : w.name = none) :
    ∃ accessor, handler.accessor = some accessor ∧
      handler.name = derivedName accessor handler.path := by
  unfold readFunction at h
  dsimp only at h
  obtain ⟨qualifier, -, h⟩ := bind_eq_ok.1 h
  obtain ⟨path, -, h⟩ := bind_eq_ok.1 h
  split at h
  · next hw => cases hn.symm.trans hw
  · next accessor _ ha =>
    obtain ⟨name, hname, h⟩ := bind_eq_ok.1 h
    obtain ⟨params, -, h⟩ := bind_eq_ok.1 h
    split at h
    all_goals
      obtain ⟨returns, -, h⟩ := bind_eq_ok.1 h
      cases h
      cases hname
      exact ⟨accessor, ha, rfl⟩
  · obtain ⟨name, hname, -⟩ := bind_eq_ok.1 h
    cases hname

end Program

/-- The text of a literal segment. -/
def PathSegment.literal? : PathSegment → Option String
  | .literal text => some text
  | _ => none

/-- The accessor of a resource and the literal segments of its path, with underscores between. -/
def Function.words (handler : Function) : String :=
  String.intercalate "_" (handler.accessor.getD "" :: handler.path.filterMap PathSegment.literal?)

theorem codeIdent_congr {name other : String}
    (h : name.toList.map identChar = other.toList.map identChar) :
    codeIdent name = codeIdent other := by
  cases hn : name.toList with
  | nil =>
    rw [hn] at h
    have ho := List.map_eq_nil_iff.1 h.symm
    rw [String.toList_eq_nil_iff.1 hn, String.toList_eq_nil_iff.1 ho]
  | cons c rest =>
    cases ho : other.toList with
    | nil =>
      rw [hn, ho] at h
      cases h
    | cons c' rest' =>
      have first : c.isDigit = c'.isDigit := by
        rw [hn, ho] at h
        rw [← isDigit_identChar c, ← isDigit_identChar c', (List.cons.inj h).1]
      apply String.toList_injective
      rw [toList_codeIdent hn, toList_codeIdent ho, first, h]

theorem identChar_underscored (text : String) :
    (Program.underscored text).toList.map identChar = text.toList.map identChar := by
  rw [Program.underscored, String.toList_map, List.map_map]
  refine List.map_congr_left fun c _ => ?_
  rw [Function.comp_apply]
  split
  · rfl
  · next h => rw [identChar, identChar, if_neg h, if_neg (by decide)]

theorem identChar_intercalate (texts : List String) :
    (String.intercalate "_" (texts.map Program.underscored)).toList.map identChar =
      (String.intercalate "_" texts).toList.map identChar := by
  induction texts with
  | nil => rfl
  | cons text texts ih =>
    cases texts with
    | nil => simp [identChar_underscored]
    | cons next texts =>
      simp only [List.map_cons, String.intercalate_cons_cons, String.toList_append, List.map_append,
        identChar_underscored] at ih ⊢
      rw [ih]

theorem codeIdent_derivedName (handler : Function) {accessor : String}
    (ha : handler.accessor = some accessor) :
    codeIdent (Program.derivedName accessor handler.path) = codeIdent handler.words := by
  have name : Program.derivedName accessor handler.path = String.intercalate "_"
      (accessor :: (handler.path.filterMap PathSegment.literal?).map Program.underscored) := by
    rw [Program.derivedName, List.map_filterMap]
    congr 3
    funext segment
    cases segment <;> rfl
  rw [name, Function.words, ha, Option.getD_some]
  refine codeIdent_congr ?_
  cases handler.path.filterMap PathSegment.literal? with
  | nil => rfl
  | cons text texts =>
    have rest := identChar_intercalate (text :: texts)
    simp only [List.map_cons, String.intercalate_cons_cons, String.toList_append, List.map_append]
      at rest ⊢
    rw [rest]

/-- **The identifier of a function without a name** is that of its accessor and the literal segments of
its path: the parameters of the path are not in it. -/
theorem codeIdent_of_readFunction {document : String} {default : Qualifier} {w : Written.Function}
    {handler : Function} (h : Program.readFunction document default w = .ok handler)
    (hn : w.name = none) : codeIdent handler.name = codeIdent handler.words := by
  obtain ⟨accessor, ha, name⟩ := Program.name_of_readFunction h hn
  rw [name, codeIdent_derivedName handler ha]

end FunctionApp
