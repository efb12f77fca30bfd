import FunctionApp.Proofs.App.Analysis
import FunctionApp.Proofs.Binding.Identity
import FunctionApp.Proofs.Json.RoundTrip

/-!
# Descriptors are read back

The fields of a binding are texts, truth values, numbers of 64 bits and lists of texts, so that the
reader can give them (`HasReadable`). Every binding of a function is made with such fields, and its
descriptor is read back from its text (`read_descriptor`).
-/

namespace FunctionApp

open Json

/-- A value of a field: one that the reader can give at any depth where a list of texts still fits.
-/
def Json.IsField (v : Json) : Prop := ∀ depth, Readable ReadsBack (depth + 2) v

namespace Json.IsField

theorem text (t : String) : IsField (.text t) := fun depth => .text (depth + 1) t

theorem bool (b : Bool) : IsField (.bool b) := fun depth => .bool (depth + 1) b

theorem ofTexts (texts : List String) : IsField (.ofTexts texts) := by
  intro depth
  refine .array fun item h => ?_
  obtain ⟨t, -, rfl⟩ := List.mem_map.1 h
  exact .text depth t

theorem int {n : Int} (h : n.natAbs ≤ Nat.pow 2 63) : IsField (.int n) := by
  intro depth
  refine .int (depth + 1) (Nat.le_trans h (by decide)) fun _ => h

end Json.IsField

theorem int64?_natAbs_le {text : String} {n : Int} (h : int64? text = some n) :
    n.natAbs ≤ Nat.pow 2 63 := by
  unfold int64? at h
  dsimp only at h
  split at h
  all_goals
    obtain ⟨m, -, h⟩ := Option.bind_eq_some_iff.1 h
    split at h
    · cases h
      omega
    · cases h

namespace AnnotationFields

variable {f : AnnotationFields} {key : String}

/-- An integer of an annotation has 64 bits. -/
theorem int_gives (f : AnnotationFields) (key : String) :
    Gives (fun n => ∀ i ∈ n, Int.natAbs i ≤ Nat.pow 2 63) (f.int key) := by
  intro n h i hi
  obtain rfl := Option.mem_def.1 hi
  unfold int parsed at h
  split at h
  · cases h
  · split at h
    · next hr =>
      cases h
      exact int64?_natAbs_le hr
    · cases h

end AnnotationFields

namespace Binding

variable {b : Binding} {key : String} {value : Json} {optional : Option Json}

/-- A binding whose fields the reader can give. -/
structure IsReadable (b : Binding) : Prop where
  fields : ∀ m ∈ b.fields, m.2.IsField
  trailing : ∀ m ∈ b.trailing, m.2.IsField

theorem isReadable_make (kind : BindingKind) (direction : Direction) (name : String) :
    (make kind direction name).IsReadable :=
  ⟨by simp [make], by simp [make]⟩

namespace IsReadable

variable (h : b.IsReadable)
include h

theorem with_ (hv : value.IsField) : (b.with_ key value).IsReadable := by
  unfold Binding.with_
  split
  · exact h
  · refine ⟨fun m hm => ?_, h.trailing⟩
    rcases mem_insertMember hm with rfl | hm
    · exact hv
    · exact h.fields m hm

theorem withText (t : String) : (b.with_ key (.text t)).IsReadable := h.with_ (.text t)

theorem withOptional (hv : ∀ v ∈ optional, v.IsField) :
    (b.withOptional key optional).IsReadable := by
  cases optional with
  | none => exact h
  | some value => exact h.with_ (hv value rfl)

theorem withText? (t : Option String) : (b.withOptional key (jsonText? t)).IsReadable := by
  refine h.withOptional fun v hv => ?_
  obtain ⟨t, -, rfl⟩ := Option.map_eq_some_iff.1 (Option.mem_def.1 hv)
  exact .text t

theorem withBool? (flag : Option Bool) : (b.withOptional key (flag.map .bool)).IsReadable := by
  refine h.withOptional fun v hv => ?_
  obtain ⟨flag, -, rfl⟩ := Option.map_eq_some_iff.1 (Option.mem_def.1 hv)
  exact .bool flag

theorem withInt? {n : Option Int} (hn : ∀ i ∈ n, Int.natAbs i ≤ Nat.pow 2 63) :
    (b.withOptional key (n.map .int)).IsReadable := by
  refine h.withOptional fun v hv => ?_
  obtain ⟨i, hi, rfl⟩ := Option.map_eq_some_iff.1 (Option.mem_def.1 hv)
  exact .int (hn i hi)

theorem withTrailing (hv : value.IsField) : (b.withTrailing key value).IsReadable := by
  unfold Binding.withTrailing
  split
  · exact h
  · refine ⟨h.fields, fun m hm => ?_⟩
    rcases mem_insertMember hm with rfl | hm
    · exact hv
    · exact h.trailing m hm

/-- A readable binding is an object that the reader can give. -/
theorem readable_distinctJson (depth : Nat) : Readable ReadsBack (depth + 3) b.distinctJson := by
  refine .object (nodup_collectMembers _) fun m hm => ?_
  rcases List.mem_append.1 (mem_collectMembers hm) with hm | hm
  · rcases List.mem_append.1 hm with hm | hm
    · rcases List.mem_cons.1 hm with rfl | hm
      · exact .text _ _
      · exact h.fields m hm depth
    · obtain rfl | rfl : m = ("direction", .text b.direction.word) ∨ m = ("name", .text b.name) := by
        simpa using hm
      · exact .text _ _
      · exact .text _ _
  · exact h.trailing m hm depth

end IsReadable

end Binding

open Binding AnnotationFields

/-! ## The bindings that are made -/

theorem Listener.binding_isReadable (l : Listener) (site : TriggerSite) :
    Gives IsReadable (l.binding site) := by
  have made := isReadable_make l.bindingKind .in_ l.variable_
  cases l with
  | http =>
    refine .bind fun level => .ok ?_
    exact ((made.withText _).with_ (.ofTexts _)).withTrailing (.text _)
  | queue => exact .bind fun queueName => .ok ((made.withText _).withText _)
  | timer => exact .bind fun schedule => .bind fun run => .ok ((made.withText _).with_ (.bool _))
  | blob =>
    refine .bind fun path => .ok (((made.withText _).withText _).withOptional fun v hv => ?_)
    obtain ⟨ty, -, rfl⟩ := Option.map_eq_some_iff.1 (Option.mem_def.1 hv)
    exact .text _
  | cosmos =>
    have optional (f : AnnotationFields) (key : String) :
        Gives (fun v : Option Json => ∀ value ∈ v, value.IsField)
          (do return (← f.int key).map Json.int : Except Problem (Option Json)) := by
      refine .bind_of (int_gives f key) fun n hn => .ok fun value hv => ?_
      obtain ⟨i, hi, rfl⟩ := Option.map_eq_some_iff.1 (Option.mem_def.1 hv)
      exact .int (hn i hi)
    refine .bind fun setting => .bind fun database => .bind fun collection => .bind fun create =>
      .bind_of (int_gives _ _) fun throughput ht => .bind_of (optional _ _) fun delay h₁ =>
      .bind_of (optional _ _) fun acquire h₂ => .bind_of (optional _ _) fun expiration h₃ =>
      .bind_of (optional _ _) fun renew h₄ => .bind_of (optional _ _) fun frequency h₅ =>
      .bind_of (optional _ _) fun items h₆ => .bind fun beginning => .ok ?_
    have throughput : Json.IsField (.int (throughput.getD 400)) := by
      cases throughput with
      | none => exact .int (by decide)
      | some n => exact .int (ht n rfl)
    -- The fields as they are written: the texts, then the leases, then the optional numbers.
    exact (((((((((((((((((made.withText _).withText _).withText _).withText? _).withText?
      _).withText? _).with_ (.bool _)).with_ throughput).withText? _).withOptional
      h₁).withOptional h₂).withOptional h₃).withOptional h₄).withOptional h₅).withOptional
      h₆).withBool? _).withText? _)

theorem Output.binding_isReadable (o : Output) (mark : Option Annotation) (ty : TypeExpr) :
    Gives IsReadable (o.binding mark ty) := by
  have made := isReadable_make o.bindingKind .out o.variable_
  cases o with
  | http => exact .ok made
  | queue => exact .bind fun queueName => .ok ((made.withText _).withText _)
  | blob => exact .bind fun path => .ok (((made.withText _).withText _).withText _)
  | sms =>
    refine .bind fun sender => .bind fun receiver => .ok ?_
    exact (((made.withText _).withText _).withText _).withText _
  | cosmos =>
    refine .bind fun setting => .bind fun database => .bind fun collection => .bind fun create =>
      .bind_of (int_gives _ _) fun throughput ht => .bind fun locations => .ok ?_
    exact ((((((((made.withText _).withText _).withText _).withBool? _).withText? _).withInt?
      ht).withBool? _).withText? _)

theorem Role.documentBinding_isReadable (site : ParamSite) :
    Gives IsReadable (documentBinding site) := by
  have made := isReadable_make .documentInput .in_ site.name
  refine .bind fun setting => .bind fun database => .bind fun collection => .ok ?_
  exact ((((((made.withText _).withText _).withText _).withText? _).withText? _).withText?
    _).withText? _

theorem Role.blobBinding_isReadable (site : ParamSite) : Gives IsReadable (blobBinding site) := by
  have made := isReadable_make .blobInput .in_ site.name
  exact .bind fun path => .ok (((made.withText _).withText _).withText _)

theorem Role.binding_isReadable (role : Role) (site : ParamSite) :
    Gives (fun b : Option Binding => ∀ binding ∈ b, binding.IsReadable) (role.binding site) := by
  have some {r : Except Problem Binding} (h : Gives IsReadable r) :
      Gives (fun b : Option Binding => ∀ binding ∈ b, binding.IsReadable) (r.map some) := by
    refine .map fun b hb binding hm => ?_
    obtain rfl := Option.some.inj (Option.mem_def.1 hm)
    exact h _ hb
  cases role with
  | documentInput => exact some (documentBinding_isReadable site)
  | blobInput => exact some (blobBinding_isReadable site)
  | metadata =>
    refine .ok fun binding hm => ?_
    obtain rfl := Option.some.inj (Option.mem_def.1 hm)
    exact isReadable_make _ _ _
  | _ => exact .ok (by simp)

/-! ## Descriptors -/

namespace ServiceUnit

variable {program : Program} {unit : ServiceUnit} {mark : Option Annotation} {handler : Function}
  {type : TypeExpr} {f : AppFunction}

theorem Assembled.isReadable (h : Assembled program unit mark handler type f) {b : Binding}
    (hb : b ∈ f.bindings) : b.IsReadable := by
  rcases List.mem_cons.1 hb with rfl | hb
  · exact unit.listener.binding_isReadable _ _ (mapError_eq_ok.1 h.trigger)
  · rw [h.eq] at hb
    rcases List.mem_append.1 hb with hb | hb
    · obtain ⟨argument, ha, he⟩ := List.mem_filterMap.1 hb
      obtain ⟨⟨p, role⟩, -, hr⟩ := List.mem_map.1 (mem_valuesOf.1 ha)
      obtain ⟨⟨⟩, -, hr⟩ := bind_eq_ok.1 (mapError_eq_ok.1 hr)
      obtain ⟨added, hb, hr⟩ := bind_eq_ok.1 hr
      cases hr
      exact role.binding_isReadable _ _ hb b he
    · unfold outputBinding? at hb
      split at hb
      · exact Output.binding_isReadable _ _ _ b
          (toOption_eq_some.1 (Option.mem_toList.1 hb))
      · cases hb

end ServiceUnit

/-- **The descriptor of a function is read back from its text.** -/
theorem App.read_descriptor {program : Program} {configuration : Diagnostics} {f : AppFunction}
    (h : f ∈ (analyze program configuration).functions) :
    Json.read f.descriptor.pretty = .ok f.descriptor := by
  obtain ⟨unit, -, mark, -, handler, -, ha⟩ := exists_assemble_of_mem configuration h
  obtain ⟨type, assembled⟩ := ServiceUnit.assembled_of_assemble ha
  have bindings : Readable ReadsBack 127 (.array
      ((f.bindings.filter fun b => b.kind.isEmitted).map Binding.distinctJson)) := by
    refine .array fun item hi => ?_
    obtain ⟨b, hb, rfl⟩ := List.mem_map.1 hi
    exact (assembled.isReadable (List.mem_filter.1 hb).1).readable_distinctJson 123
  exact read_pretty (.cons (by simp [keys]) bindings (.empty _))

end FunctionApp
