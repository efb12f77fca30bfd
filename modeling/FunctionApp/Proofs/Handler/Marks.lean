import FunctionApp.Proofs.Results

/-!
# Annotations in any order

The annotations of a service, of a parameter and of a result are read one after the other, and each
reading stops at the first one that does not fit. Still it depends on no order
(`ServiceUnit.checked_in_any_order`): a reading succeeds just if no annotation is unsupported, every
known one may stand there, and there is one of these at most (`Admits`), and what it finds is the
known one. All three readings take the same kind of step (`Reads`), so that what a list of
annotations leaves is found by one induction (`Reads.foldlM_eq_ok_iff`).
-/

namespace FunctionApp

variable {program : Program} {unit : ServiceUnit} {β : Type} {as bs : List Annotation}
  {a : Annotation} {kind : AnnotationKind} {allowed : AnnotationKind → Prop}

namespace ServiceUnit

/-- What an annotation in the document of the service does, if its name is known. -/
def kindOf? (program : Program) (unit : ServiceUnit) (a : Annotation) : Option AnnotationKind :=
  match (unit.meaning program a).1 with
  | .known kind => some kind
  | _ => none

/-- The known annotations of a list, each with what it does. -/
def known (program : Program) (unit : ServiceUnit) (as : List Annotation) :
    List (AnnotationKind × Annotation) :=
  as.filterMap fun a => (unit.kindOf? program a).map (·, a)

/-- Annotations of which none is unsupported, every known one is allowed, and one at most is known.
-/
structure Admits (program : Program) (unit : ServiceUnit) (allowed : AnnotationKind → Prop)
    (as : List Annotation) : Prop where
  supported : ∀ a ∈ as, (unit.meaning program a).1 ≠ .unsupported
  allowed : ∀ m ∈ unit.known program as, allowed m.1
  single : (unit.known program as).length ≤ 1

theorem known_cons (a : Annotation) (as : List Annotation) :
    unit.known program (a :: as) = unit.known program [a] ++ unit.known program as :=
  List.filterMap_append (l := [a])

/-! ## Other orders -/

theorem known_perm (h : as.Perm bs) : (unit.known program as).Perm (unit.known program bs) :=
  h.filterMap _

theorem Admits.perm (h : as.Perm bs) (admitted : unit.Admits program allowed as) :
    unit.Admits program allowed bs where
  supported a ha := admitted.supported a (h.mem_iff.2 ha)
  allowed m hm := admitted.allowed m ((known_perm h).mem_iff.2 hm)
  single := (known_perm h).length_eq ▸ admitted.single

/-- Where one annotation at most is known, the known ones have one order only. -/
theorem Admits.known_eq (h : as.Perm bs) (admitted : unit.Admits program allowed as) :
    unit.known program bs = unit.known program as := by
  have single := admitted.single
  have perm : (unit.known program as).Perm (unit.known program bs) := known_perm h
  cases hk : unit.known program as with
  | nil =>
    rw [hk] at perm
    exact perm.nil_eq.symm
  | cons m rest =>
    rw [hk] at single perm
    obtain rfl : rest = [] := List.eq_nil_of_length_eq_zero (by simpa using single)
    exact List.perm_singleton.1 perm.symm

/-- A condition on admitted annotations that asks for no more than the known ones. -/
theorem admits_and_perm_iff (h : as.Perm bs)
    (condition : List (AnnotationKind × Annotation) → Prop) :
    unit.Admits program allowed as ∧ condition (unit.known program as) ↔
      unit.Admits program allowed bs ∧ condition (unit.known program bs) := by
  constructor
  · rintro ⟨admitted, met⟩
    exact ⟨admitted.perm h, (admitted.known_eq h).symm ▸ met⟩
  · rintro ⟨admitted, met⟩
    exact ⟨admitted.perm h.symm, (admitted.known_eq h.symm).symm ▸ met⟩

/-! ## Reading a list -/

/-- What a reading finds of an annotation that it takes. -/
abbrev Taker (β : Type) : Type := Annotation → β

/-- The steps of a reading that takes annotations by what they do: a foreign one leaves what was
found, and a known one is found if it can be taken and none was found before. Every other step
fails. -/
def Reads (program : Program) (unit : ServiceUnit) (take? : AnnotationKind → Option (Taker β))
    (next : Option β → Annotation → Except Diagnostic (Option β)) : Prop :=
  ∀ found a found', next found a = .ok found' ↔
    (unit.meaning program a).1 = .foreign ∧ found' = found ∨
      ∃ kind take, (unit.meaning program a).1 = .known kind ∧ take? kind = some take ∧
        found = none ∧ found' = some (take a)

/-- What a reading takes of known annotations. -/
def taken (take? : AnnotationKind → Option (Taker β))
    (marks : List (AnnotationKind × Annotation)) : List β :=
  marks.filterMap fun m => (take? m.1).map (· m.2)

/-- A list of annotations that are supported and can be taken, where what was found before and what
is taken of the list are together what is found, which is one annotation at most. -/
structure Leads (program : Program) (unit : ServiceUnit)
    (take? : AnnotationKind → Option (Taker β)) (found : Option β) (as : List Annotation)
    (found' : Option β) : Prop where
  supported : ∀ a ∈ as, (unit.meaning program a).1 ≠ .unsupported
  takeable : ∀ m ∈ unit.known program as, (take? m.1).isSome = true
  found : found'.toList = found.toList ++ taken take? (unit.known program as)

variable {take? : AnnotationKind → Option (Taker β)}
  {next : Option β → Annotation → Except Diagnostic (Option β)} {found found' : Option β}

theorem taken_append (marks more : List (AnnotationKind × Annotation)) :
    taken take? (marks ++ more) = taken take? marks ++ taken take? more :=
  List.filterMap_append

theorem toList_injective : Function.Injective (Option.toList : Option β → List β) := by
  intro x y h
  cases x <;> cases y <;> simp_all

theorem leads_nil : Leads program unit take? found [] found' ↔ found' = found := by
  constructor
  · intro h
    exact toList_injective (h.found.trans (List.append_nil _))
  · rintro rfl
    exact ⟨by simp, by simp [known], by simp [known, taken]⟩

theorem leads_cons (a : Annotation) (as : List Annotation) :
    Leads program unit take? found (a :: as) found' ↔
      ∃ between, Leads program unit take? found [a] between ∧
        Leads program unit take? between as found' := by
  constructor
  · intro h
    have takeable := h.takeable
    have whole := h.found
    rw [known_cons] at takeable whole
    rw [taken_append, ← List.append_assoc] at whole
    -- What comes before the rest of the list is a part of what is found in the end.
    have few : (found.toList ++ taken take? (unit.known program [a])).length ≤ 1 := by
      have length := congrArg List.length whole
      rw [List.length_append] at length
      have := Option.length_toList_le (o := found')
      omega
    obtain ⟨between, hb⟩ : ∃ between : Option β,
        between.toList = found.toList ++ taken take? (unit.known program [a]) := by
      cases hl : found.toList ++ taken take? (unit.known program [a]) with
      | nil => exact ⟨none, rfl⟩
      | cons b rest =>
        rw [hl] at few
        obtain rfl : rest = [] := List.eq_nil_of_length_eq_zero (by simpa using few)
        exact ⟨some b, rfl⟩
    refine ⟨between, ⟨?_, ?_, hb⟩, ?_, ?_, by rw [whole, hb]⟩
    · simpa using h.supported a (.head _)
    · exact fun m hm => takeable m (List.mem_append_left _ hm)
    · exact fun b hb => h.supported b (.tail _ hb)
    · exact fun m hm => takeable m (List.mem_append_right _ hm)
  · rintro ⟨between, first, rest⟩
    refine ⟨fun b hb => ?_, fun m hm => ?_, ?_⟩
    · rcases List.mem_cons.1 hb with rfl | hb
      · exact first.supported b (.head _)
      · exact rest.supported b hb
    · rw [known_cons] at hm
      exact (List.mem_append.1 hm).elim (first.takeable m) (rest.takeable m)
    · rw [rest.found, first.found, List.append_assoc, ← taken_append, ← known_cons]

/-- A step goes on with what the annotation leads to. -/
theorem Reads.next_eq_ok_iff (h : Reads program unit take? next) :
    next found a = .ok found' ↔ Leads program unit take? found [a] found' := by
  rw [h]
  constructor
  · rintro (⟨foreign, rfl⟩ | ⟨kind, take, acts, takes, rfl, rfl⟩)
    · have unknown : unit.known program [a] = [] := by simp [known, kindOf?, foreign]
      exact ⟨by simp [foreign], by simp [unknown], by simp [unknown, taken]⟩
    · have found : unit.known program [a] = [(kind, a)] := by simp [known, kindOf?, acts]
      exact ⟨by simp [acts], by simp [found, takes], by simp [found, taken, takes]⟩
  · intro leads
    cases acts : (unit.meaning program a).1 with
    | foreign =>
      have unknown : unit.known program [a] = [] := by simp [known, kindOf?, acts]
      refine .inl ⟨rfl, toList_injective ?_⟩
      rw [leads.found, unknown]
      exact List.append_nil _
    | unsupported => exact absurd acts (leads.supported a (.head _))
    | known kind =>
      have single : unit.known program [a] = [(kind, a)] := by simp [known, kindOf?, acts]
      have takeable := leads.takeable
      have whole := leads.found
      rw [single] at takeable whole
      obtain ⟨take, takes⟩ := Option.isSome_iff_exists.1 (takeable _ (.head _))
      refine .inr ⟨kind, take, rfl, takes, ?_⟩
      cases found with
      | none => exact ⟨rfl, toList_injective (by simpa [taken, takes] using whole)⟩
      | some b => cases found' <;> simp [taken, takes] at whole

/-- **A reading goes on with what the list leads to**, and fails where it leads to nothing. -/
theorem Reads.foldlM_eq_ok_iff (h : Reads program unit take? next) :
    as.foldlM next found = .ok found' ↔ Leads program unit take? found as found' := by
  induction as generalizing found with
  | nil =>
    rw [leads_nil, List.foldlM_nil]
    exact ⟨fun e => (Except.ok.inj e).symm, fun e => congrArg _ e.symm⟩
  | cons a as ih =>
    rw [List.foldlM_cons, bind_eq_ok, leads_cons]
    simp only [h.next_eq_ok_iff, ih]

/-- Where nothing was found before, what is found is the known annotation of an admitted list. -/
theorem leads_none_iff : Leads program unit take? none as found ↔
    unit.Admits program (fun kind => (take? kind).isSome = true) as ∧
      found = (unit.known program as).head?.bind fun m => (take? m.1).map (· m.2) := by
  have single (marks : List (AnnotationKind × Annotation)) (few : marks.length ≤ 1) :
      taken take? marks = (marks.head?.bind fun m => (take? m.1).map (· m.2)).toList := by
    cases marks with
    | nil => rfl
    | cons m rest =>
      obtain rfl : rest = [] := List.eq_nil_of_length_eq_zero (by simpa using few)
      cases ht : take? m.1 <;> simp [taken, ht]
  constructor
  · intro h
    have few : (unit.known program as).length ≤ 1 := by
      have all : (taken take? (unit.known program as)).length = (unit.known program as).length :=
        List.filterMap_length_eq_length.2 fun m hm => by simpa using h.takeable m hm
      rw [← all]
      have length := congrArg List.length h.found
      have := Option.length_toList_le (o := found)
      simpa [length] using this
    exact ⟨⟨h.supported, h.takeable, few⟩, toList_injective (h.found.trans (single _ few))⟩
  · rintro ⟨admitted, rfl⟩
    exact ⟨admitted.supported, admitted.allowed, (single _ admitted.single).symm⟩

/-! ## The three readings -/

/-- What configures the trigger of a listener. -/
def IsTriggerOf (l : Listener) (kind : AnnotationKind) : Prop :=
  kind.placement = .service ∧ kind.listener? = some l

instance (l : Listener) (kind : AnnotationKind) : Decidable (IsTriggerOf l kind) :=
  inferInstanceAs (Decidable (_ ∧ _))

theorem nextTrigger_reads (program : Program) (unit : ServiceUnit) :
    Reads program unit (fun kind => if IsTriggerOf unit.listener kind then some id else none)
      (unit.nextTrigger program) := by
  intro found a found'
  unfold nextTrigger
  dsimp only
  split
  · next name hm => simp [hm, eq_comm]
  · next name hm => simp [hm]
  · next kind name hm =>
    simp only [hm, reduceCtorEq, false_and, false_or, AnnotationMeaning.known.injEq,
      exists_and_left, exists_eq_left']
    split
    · next misplaced => simp [IsTriggerOf, misplaced]
    · next placed =>
      split
      · next other => simp [IsTriggerOf, other]
      · next own =>
        have fits : IsTriggerOf unit.listener kind := ⟨by simpa using placed, by simpa using own⟩
        rw [if_pos fits]
        cases found <;> simp [eq_comm]

theorem nextMark_reads (program : Program) (unit : ServiceUnit) (param : Param) :
    Reads program unit (fun kind => kind.role?.map Prod.mk) (unit.nextMark program param) := by
  intro found a found'
  unfold nextMark
  dsimp only
  split
  · next name hm => simp [hm, eq_comm]
  · next name hm => simp [hm]
  · next kind name hm =>
    simp only [hm, reduceCtorEq, false_and, false_or, AnnotationMeaning.known.injEq,
      exists_and_left, exists_eq_left']
    split
    · next none => simp [none]
    · next again => simp
    · next role takes => simp [takes, eq_comm]

theorem nextOutput_reads (program : Program) (unit : ServiceUnit) :
    Reads program unit (fun kind => kind.output?.map Prod.mk) (unit.nextOutput program) := by
  intro found a found'
  unfold nextOutput
  dsimp only
  split
  · next name hm => simp [hm, eq_comm]
  · next name hm => simp [hm]
  · next kind name hm =>
    simp only [hm, reduceCtorEq, false_and, false_or, AnnotationMeaning.known.injEq,
      exists_and_left, exists_eq_left']
    split
    · next none => simp [none]
    · next again => simp
    · next output takes => simp [takes, eq_comm]

theorem readTrigger_eq_ok_iff {found : Option Annotation} :
    as.foldlM (unit.nextTrigger program) none = .ok found ↔
      unit.Admits program (IsTriggerOf unit.listener) as ∧
        found = (unit.known program as).head?.map (·.2) := by
  have allowed : (fun kind => (if IsTriggerOf unit.listener kind then some (id : Annotation → _)
      else none).isSome = true) = IsTriggerOf unit.listener := by
    funext kind
    simp
  rw [(nextTrigger_reads program unit).foldlM_eq_ok_iff, leads_none_iff, allowed]
  refine and_congr_right fun admitted => ?_
  cases hk : unit.known program as with
  | nil => simp
  | cons m rest =>
    have fits := admitted.allowed m (hk ▸ .head _)
    simp [fits]

/-- **The trigger annotation of a service** is its known annotation, which only a service on an HTTP
listener may leave out. -/
theorem trigger?_eq_ok_iff {found : Option Annotation} : unit.trigger? program = .ok found ↔
    unit.Admits program (IsTriggerOf unit.listener) unit.service.annotations ∧
      (unit.listener ≠ .http → (unit.known program unit.service.annotations).length = 1) ∧
      found = (unit.known program unit.service.annotations).head?.map (·.2) := by
  unfold trigger?
  rw [bind_eq_ok]
  simp only [readTrigger_eq_ok_iff, and_assoc, exists_and_left, exists_eq_left]
  refine and_congr_right fun admitted => ?_
  have single := admitted.single
  cases hk : unit.known program unit.service.annotations with
  | nil =>
    by_cases http : unit.listener = .http
    · simp [http, Listener.annotationOptional, pure, Except.pure, @eq_comm _ found]
    · simp [http, Listener.annotationOptional]
  | cons m rest =>
    obtain rfl : rest = [] := List.eq_nil_of_length_eq_zero (by simpa [hk] using single)
    simp [pure, Except.pure, @eq_comm _ found]

/-- **The role of a parameter** is the one of its known annotation. -/
theorem mark?_eq_ok_iff {param : Param} {found : Option (Role × Annotation)} :
    unit.mark? program param = .ok found ↔
      unit.Admits program (fun kind => kind.role?.isSome = true) param.annotations ∧
        found = (unit.known program param.annotations).head?.bind fun m =>
          m.1.role?.map (·, m.2) := by
  unfold mark?
  rw [(nextMark_reads program unit param).foldlM_eq_ok_iff, leads_none_iff]
  simp [Function.comp_def]

theorem isSome_output?_iff : kind.output?.isSome = true ↔ kind.placement = .returnType := by
  cases kind <;> simp [AnnotationKind.output?, AnnotationKind.placement]

theorem readOutput_eq_ok_iff {found : Option (Output × Annotation)} :
    as.foldlM (unit.nextOutput program) none = .ok found ↔
      unit.Admits program (fun kind => kind.placement = .returnType) as ∧
        found = (unit.known program as).head?.bind fun m => m.1.output?.map (·, m.2) := by
  rw [(nextOutput_reads program unit).foldlM_eq_ok_iff, leads_none_iff]
  simp [Function.comp_def, isSome_output?_iff]

/-- **The output of a result** is the one of its known annotation. Only an HTTP handler may answer
requests, which it does without an annotation, and every other one without an annotation returns no
value. -/
theorem output?_eq_ok_iff {function : String} {returns : Returns} {type : TypeExpr}
    {found : Option (Output × Option Annotation)} :
    unit.output? program function returns type = .ok found ↔
      unit.Admits program (fun kind => kind.placement = .returnType) returns.annotations ∧
        (∀ m ∈ unit.known program returns.annotations, m.1 = .output .http →
          unit.listener = .http) ∧
        (unit.listener ≠ .http → unit.known program returns.annotations = [] →
          type.valueType = none) ∧
        found = ((unit.known program returns.annotations).head?.bind fun m =>
          m.1.output?.map (·, some m.2)).or
            (if unit.listener = .http then some (.http, none) else none) := by
  unfold output?
  rw [bind_eq_ok]
  simp only [readOutput_eq_ok_iff, and_assoc, exists_and_left, exists_eq_left]
  refine and_congr_right fun admitted => ?_
  have single := admitted.single
  cases hk : unit.known program returns.annotations with
  | nil =>
    by_cases http : unit.listener = .http
    · simp [http, pure, Except.pure, @eq_comm _ found]
    · cases type.valueType <;> simp [http, pure, Except.pure, @eq_comm _ found]
  | cons m rest =>
    obtain rfl : rest = [] := List.eq_nil_of_length_eq_zero (by simpa [hk] using single)
    obtain ⟨kind, a⟩ := m
    have placed : kind.placement = .returnType := admitted.allowed (kind, a) (hk ▸ .head _)
    obtain ⟨output, takes⟩ := Option.isSome_iff_exists.1 (isSome_output?_iff.2 placed)
    obtain rfl : kind = .output output := by cases kind <;> simp_all [AnnotationKind.output?]
    by_cases off : output = .http ∧ unit.listener ≠ .http
    · simp [off, AnnotationKind.output?]
    · have fits : output = .http → unit.listener = .http := by simpa using off
      simp only [AnnotationKind.output?, List.head?_cons, Option.bind_some, Option.map_some, off]
      simpa [pure, Except.pure, @eq_comm _ found] using fun _ => fits

/-- The service with other annotations. -/
def annotated (unit : ServiceUnit) (as : List Annotation) : ServiceUnit :=
  { unit with service := { unit.service with annotations := as } }

/-- What an annotation does depends on the document of the service alone. -/
theorem admits_annotated : (unit.annotated bs).Admits program allowed as ↔
    unit.Admits program allowed as :=
  ⟨fun h => ⟨h.supported, h.allowed, h.single⟩, fun h => ⟨h.supported, h.allowed, h.single⟩⟩

/-- **Annotations are checked in any order.** The reading of the annotations of a service, of a
parameter and of a result succeeds just under a condition on them that no order changes, and finds
the known annotation in whatever order they are written. -/
theorem checked_in_any_order (program : Program) (unit : ServiceUnit) (param : Param)
    (function : String) (returns : Returns) (type : TypeExpr) {as ps rs : List Annotation}
    (hs : as.Perm unit.service.annotations) (hp : ps.Perm param.annotations)
    (hr : rs.Perm returns.annotations) :
    (∀ found, unit.trigger? program = .ok found ↔
      unit.Admits program (IsTriggerOf unit.listener) unit.service.annotations ∧
        (unit.listener ≠ .http → (unit.known program unit.service.annotations).length = 1) ∧
        found = (unit.known program unit.service.annotations).head?.map (·.2)) ∧
    (∀ found, (unit.annotated as).trigger? program = .ok found ↔
      unit.trigger? program = .ok found) ∧
    (∀ found, unit.mark? program param = .ok found ↔
      unit.Admits program (fun kind => kind.role?.isSome = true) param.annotations ∧
        found = (unit.known program param.annotations).head?.bind fun m =>
          m.1.role?.map (·, m.2)) ∧
    (∀ found, unit.mark? program { param with annotations := ps } = .ok found ↔
      unit.mark? program param = .ok found) ∧
    (∀ found, unit.output? program function returns type = .ok found ↔
      unit.Admits program (fun kind => kind.placement = .returnType) returns.annotations ∧
        (∀ m ∈ unit.known program returns.annotations, m.1 = .output .http →
          unit.listener = .http) ∧
        (unit.listener ≠ .http → unit.known program returns.annotations = [] →
          type.valueType = none) ∧
        found = ((unit.known program returns.annotations).head?.bind fun m =>
          m.1.output?.map (·, some m.2)).or
            (if unit.listener = .http then some (.http, none) else none)) ∧
    (∀ found, unit.output? program function { returns with annotations := rs } type = .ok found ↔
      unit.output? program function returns type = .ok found) := by
  refine ⟨fun _ => trigger?_eq_ok_iff, fun found => ?_, fun _ => mark?_eq_ok_iff, fun found => ?_,
    fun _ => output?_eq_ok_iff, fun found => ?_⟩
  · rw [trigger?_eq_ok_iff, trigger?_eq_ok_iff, admits_annotated]
    exact admits_and_perm_iff hs fun marks =>
      (unit.listener ≠ .http → marks.length = 1) ∧ found = marks.head?.map (·.2)
  · rw [mark?_eq_ok_iff, mark?_eq_ok_iff]
    exact admits_and_perm_iff hp fun marks =>
      found = marks.head?.bind fun m => m.1.role?.map (·, m.2)
  · rw [output?_eq_ok_iff, output?_eq_ok_iff]
    exact admits_and_perm_iff hr fun marks =>
      (∀ m ∈ marks, m.1 = .output .http → unit.listener = .http) ∧
        (unit.listener ≠ .http → marks = [] → type.valueType = none) ∧
        found = (marks.head?.bind fun m => m.1.output?.map (·, some m.2)).or
          (if unit.listener = .http then some (.http, none) else none)

def notedDocument : Document where
  name := "main"
  imports := [("af", "azure_functions"), ("http", "http"), ("doc", "notes")]
  listeners := []
  services := []
  functions := []

def notedProgram : Program where
  name := "app"
  types := []
  errors := []
  documents := [notedDocument]

def note (name : String) : Annotation := ⟨name, [], .within "main"⟩

/-- A service on a queue whose trigger annotation stands behind one of another module. -/
def notedUnit : ServiceUnit where
  document := notedDocument
  service := ⟨none, [], .inline "af:QueueListener", [note "doc:Owner", note "af:QueueTrigger"], [],
    .within "main"⟩
  listener := .queue

def notedParam : Param :=
  ⟨"order", .required, .builtin .json, [note "http:Payload", note "doc:Owner"], .within "main"⟩

def notedReturns : Returns :=
  ⟨.builtin .json, [note "doc:Owner", note "doc:Since", note "af:QueueOutput"], .within "main"⟩

theorem checked_in_any_order_notes :
    [note "af:QueueTrigger", note "doc:Owner"].Perm notedUnit.service.annotations ∧
      [note "doc:Owner", note "http:Payload"].Perm notedParam.annotations ∧
      [note "af:QueueOutput", note "doc:Owner", note "doc:Since"].Perm notedReturns.annotations ∧
      (notedUnit.annotated [note "af:QueueTrigger", note "doc:Owner"]).trigger? notedProgram =
        .ok (some (note "af:QueueTrigger")) ∧
      notedUnit.mark? notedProgram
          { notedParam with annotations := [note "doc:Owner", note "http:Payload"] } =
        .ok (some (.payload, note "http:Payload")) ∧
      notedUnit.output? notedProgram "orders"
          { notedReturns with
            annotations := [note "af:QueueOutput", note "doc:Owner", note "doc:Since"] }
          (.builtin .json) =
        .ok (some (.queue, some (note "af:QueueOutput"))) := by
  have service : [note "af:QueueTrigger", note "doc:Owner"].Perm notedUnit.service.annotations := by
    decide +kernel
  have param : [note "doc:Owner", note "http:Payload"].Perm notedParam.annotations := by
    decide +kernel
  have returns : [note "af:QueueOutput", note "doc:Owner", note "doc:Since"].Perm
      notedReturns.annotations := by
    decide +kernel
  obtain ⟨-, trigger, -, mark, -, output⟩ := checked_in_any_order notedProgram notedUnit notedParam
    "orders" notedReturns (.builtin .json) service param returns
  refine ⟨service, param, returns, (trigger _).2 ?_, (mark _).2 ?_, (output _).2 ?_⟩
  · decide +kernel
  · decide +kernel
  · decide +kernel

end ServiceUnit

end FunctionApp
