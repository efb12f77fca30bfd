import FunctionApp.Proofs.Handler.AliasContracts
import FunctionApp.Proofs.Json.Members
import FunctionApp.Proofs.Results

/-!
# How the data of a blob is declared

The binding of a blob says whether its data are bytes or a text. What a blob is read or written as
is decided behind the aliases, but the word in the binding and the encoding of the output are chosen
by the type as it is written (`blob_declared_as_written`): they agree with each other, and they say
that the data are bytes just if the type is written as `byte[]`. Under a name for `byte[]` bytes are
declared as a text.
-/

namespace FunctionApp

open TypeExpr

variable {program : Program} {ty value : TypeExpr} {mark : Option Annotation}

/-! ## The types of blobs -/

/-- Whether bytes or a text are declared for a value. -/
def blobWord (value : TypeExpr) : String := if value.isByteArray then "binary" else "string"

theorem TypeExpr.isByteArray_iff : value.isByteArray = true ↔ value = .array (.builtin .byte) := by
  cases value with
  | array element =>
    cases element with
    | builtin b => cases b <;> simp [isByteArray]
    | _ => simp [isByteArray]
  | _ => simp [isByteArray]

/-- Blobs are read as texts, as bytes, or as what a name stands for. -/
theorem isBlobData_cases (h : isBlobData program value = true) :
    value = .builtin .string ∨ value = .array (.builtin .byte) ∨ ∃ name, value = .named name := by
  by_cases isName : ∃ name, value = .named name
  · exact .inr (.inr isName)
  · have kept : program.resolveAlias value = value :=
      Program.resolveAlias_of_not_named fun name hn => isName ⟨name, hn⟩
    unfold isBlobData at h
    rw [kept, Bool.or_eq_true, beq_iff_eq, isByteArray_iff] at h
    exact h.imp_right .inl

theorem isUnion_of_isBlobData (h : isBlobData program value = true) : value.isUnion = false := by
  rcases isBlobData_cases h with rfl | rfl | ⟨name, rfl⟩ <;> rfl

theorem withoutNil_of_isBlobData (h : isBlobData program value = true) :
    value.withoutNil = some value := by
  apply withoutNil_of_not_isUnion (isUnion_of_isBlobData h)
  rcases isBlobData_cases h with rfl | rfl | ⟨name, rfl⟩ <;> nofun

theorem ne_error_of_isBlobData (h : isBlobData program value = true) : value ≠ .builtin .error := by
  rcases isBlobData_cases h with rfl | rfl | ⟨name, rfl⟩ <;> nofun

theorem blobDataType_eq (h : ty.withoutNil = some value) : blobDataType ty = blobWord value := by
  rw [blobDataType, h]
  rfl

/-- Bytes are encoded as such just if they are declared. -/
theorem ofType_eq_binary_iff (h : isBlobData program value = true) :
    ContentType.ofType value = .binary ↔ blobWord value = "binary" := by
  rcases isBlobData_cases h with rfl | rfl | ⟨name, rfl⟩
  · decide
  · decide
  · simp [ContentType.ofType, withoutNil_named, blobWord, isByteArray]

/-- What is declared for a value is what is declared for the value behind its aliases, unless a name
stands for bytes. -/
theorem blobWord_resolveAlias_iff : blobWord value = blobWord (program.resolveAlias value) ↔
    ∀ name, value = .named name → (program.resolveAlias value).isByteArray = false := by
  by_cases isName : ∃ name, value = .named name
  · obtain ⟨name, rfl⟩ := isName
    have asText : blobWord (.named name) = "string" := rfl
    rw [asText, blobWord]
    cases (program.resolveAlias (.named name)).isByteArray <;> simp
  · rw [Program.resolveAlias_of_not_named fun name hn => isName ⟨name, hn⟩]
    exact iff_of_true rfl fun name hn => absurd ⟨name, hn⟩ isName

/-! ## The bindings of blobs -/

/-- A text that is put into a binding is there. -/
theorem Binding.field?_with_text (b : Binding) (key text : String) :
    (b.with_ key (.text text)).field? key = some (.text text) := by
  have there : (b.with_ key (.text text)).fields.lookup key = some (.text text) := by
    unfold with_
    rw [if_neg (by simp [Json.isNull]), Json.lookup_insertMember, if_pos rfl]
  rw [field?, there]
  rfl

/-- A binding with the fields of a blob: its path and its connection, and the word for a type. -/
def withBlobFields (b : Binding) (f : AnnotationFields) (ty : TypeExpr) :
    Except Problem Binding := do
  return b.with_ "path" (.text (← f.required "path"))
    |>.with_ "connection" (.text ((f.text? "connection").getD defaultConnection))
    |>.with_ "dataType" (.text (blobDataType ty))

theorem withBlobFields_gives (b : Binding) (f : AnnotationFields) (ty : TypeExpr) :
    Gives (fun made => made.field? "dataType" = some (.text (blobDataType ty)))
      (withBlobFields b f ty) :=
  .bind fun _ => .ok (Binding.field?_with_text _ _ _)

theorem withBlobFields_eq_ok_iff {b : Binding} {f : AnnotationFields} :
    (∃ made, withBlobFields b f ty = .ok made) ↔
      ∃ path, f.written.bind (·.field? "path") = some path := by
  unfold withBlobFields AnnotationFields.required AnnotationFields.text?
  cases f.written.bind (·.field? "path") with
  | none => exact iff_of_false nofun nofun
  | some path => exact iff_of_true ⟨_, rfl⟩ ⟨path, rfl⟩

/-- What a function does with a blob: it is started by it, reads it or writes it. -/
inductive BlobUse where
  | trigger (accessor : Option String) (route : String)
  | input (param : String) (listener : Listener)
  | output

namespace BlobUse

/-- Whether the handler of a use takes a type. -/
def Takes (program : Program) (mark : Option Annotation) (ty : TypeExpr) : BlobUse → Prop
  | .trigger .. => Listener.blob.accepts program ty = true
  | .input param listener => Role.blobInput.check program ⟨param, ty, mark, listener⟩ = .ok ()
  | .output => Output.blob.check program ty = .ok ()

/-- The binding of a use for a type. -/
def binding (mark : Option Annotation) (ty : TypeExpr) : BlobUse → Except Problem (Option Binding)
  | .trigger accessor route =>
    (Listener.blob.binding ⟨mark, accessor, route, some ty⟩).map some
  | .input param listener => Role.blobInput.binding ⟨param, ty, mark, listener⟩
  | .output => (Output.blob.binding mark ty).map some

def kind : BlobUse → AnnotationKind
  | .trigger .. => .trigger .blob
  | .input .. => .blobInput
  | .output => .output .blob

/-- The type that a use chooses the word by. -/
def declared (ty : TypeExpr) : BlobUse → TypeExpr
  | .output => ty.valueType.getD (.builtin .string)
  | _ => ty

variable {use : BlobUse}

/-- The value that is taken is the same for all uses: the type without `()` and `error`. -/
theorem Takes.exists_value (taken : use.Takes program mark ty) :
    ∃ value, ty.valueType = some value ∧ isBlobData program value = true ∧
      (use.declared ty).withoutNil = some value := by
  cases use with
  | trigger accessor route =>
    have data : isBlobData program ty = true := taken
    have left := withoutNil_of_isBlobData data
    exact ⟨ty, valueType_of_withoutNil left (isUnion_of_isBlobData data)
      (ne_error_of_isBlobData data), data, left⟩
  | input param listener =>
    obtain ⟨-, value, left, data⟩ := (Role.check_eq_ok_iff rfl).1 taken
    exact ⟨value, valueType_of_withoutNil left (isUnion_of_isBlobData data)
      (ne_error_of_isBlobData data), data, left⟩
  | output =>
    obtain ⟨value, part, data⟩ := (Output.check_eq_ok_iff (by decide)).1 taken
    refine ⟨value, part, data, ?_⟩
    rw [declared, part]
    exact withoutNil_of_isBlobData data

/-- The binding that a use starts from. -/
def start : BlobUse → Binding
  | .trigger .. => .make .blobTrigger .in_ "inMsg"
  | .input param _ => .make .blobInput .in_ param
  | .output => .make .blobOutput .out "outMsg"

/-- All uses put the same fields into their binding. -/
theorem binding_eq (use : BlobUse) (mark : Option Annotation) (ty : TypeExpr) :
    use.binding mark ty =
      (withBlobFields use.start ⟨mark, use.kind⟩ (use.declared ty)).map some := by
  cases use <;> rfl

/-- A use has a binding if its annotation has a path, and then its word is that for the value. -/
theorem Takes.binding (taken : use.Takes program mark ty) (part : ty.valueType = some value) :
    ((∃ b, use.binding mark ty = .ok b) ↔ ∃ path, mark.bind (·.field? "path") = some path) ∧
      ∀ b, use.binding mark ty = .ok b → ∃ made, b = some made ∧
        made.field? "dataType" = some (.text (blobWord value)) := by
  obtain ⟨same, part', -, left⟩ := taken.exists_value
  obtain rfl := Option.some.inj (part'.symm.trans part)
  rw [binding_eq]
  constructor
  · rw [← withBlobFields_eq_ok_iff (f := ⟨mark, use.kind⟩)]
    constructor
    · rintro ⟨b, there⟩
      obtain ⟨made, there, -⟩ := map_eq_ok.1 there
      exact ⟨made, there⟩
    · rintro ⟨made, there⟩
      exact ⟨some made, map_eq_ok.2 ⟨made, there, rfl⟩⟩
  · intro b there
    obtain ⟨made, fields, rfl⟩ := map_eq_ok.1 there
    refine ⟨made, rfl, ?_⟩
    rw [withBlobFields_gives _ _ _ made fields, blobDataType_eq left]

end BlobUse

/-- The statement that writes a blob encodes bytes as such just if they are declared. -/
theorem Output.marshal_blob (taken : Output.blob.check program ty = .ok ())
    (part : ty.valueType = some value) (result : Option String) :
    ∃ encoding, Output.blob.marshal result ty = .marshal "outMsg" .blobOutput result encoding ∧
      (encoding = .binary ↔ blobWord value = "binary") := by
  obtain ⟨same, part', data⟩ := (Output.check_eq_ok_iff (by decide)).1 taken
  obtain rfl := Option.some.inj (part'.symm.trans part)
  refine ⟨ContentType.ofType same, ?_, ofType_eq_binary_iff data⟩
  rw [marshal, part]
  rfl

/-- **The data of a blob are declared by the type as it is written.** What a use of a blob takes has
a value part. With a path there is a binding, whose word is that for the value part as it is written;
this is the word for the value behind its aliases unless it is a name for bytes. An output is
encoded as bytes just if its binding says so. -/
theorem blob_declared_as_written (use : BlobUse) (taken : use.Takes program mark ty) :
    ∃ value, ty.valueType = some value ∧
      ((∃ b, use.binding mark ty = .ok b) ↔ ∃ path, mark.bind (·.field? "path") = some path) ∧
      (∀ b, use.binding mark ty = .ok b → ∃ made, b = some made ∧
        made.field? "dataType" = some (.text (blobWord value))) ∧
      (blobWord value = blobWord (program.resolveAlias value) ↔
        ∀ name, value = .named name → (program.resolveAlias value).isByteArray = false) ∧
      (use = .output → ∀ result, ∃ encoding,
        Output.blob.marshal result ty = .marshal "outMsg" .blobOutput result encoding ∧
          (encoding = .binary ↔ blobWord value = "binary")) := by
  obtain ⟨value, part, -⟩ := taken.exists_value
  obtain ⟨path, word⟩ := taken.binding part
  refine ⟨value, part, path, word, blobWord_resolveAlias_iff, fun output result => ?_⟩
  subst output
  exact Output.marshal_blob taken part result

/-- A program with a name for bytes. -/
def imagesProgram : Program where
  name := "app"
  types := [("Image", .alias (.array (.builtin .byte)))]
  errors := []
  documents := []

/-- An annotation with the path of a blob. -/
def latestImage : Option Annotation :=
  some ⟨"af:BlobOutput", [("path", .literal "images/latest")], .startOf "main"⟩

theorem blob_declared_as_written_bytes :
    BlobUse.output.Takes imagesProgram latestImage
        (.union [.array (.builtin .byte), .builtin .error, .nil]) ∧
      ∃ made, BlobUse.output.binding latestImage
          (.union [.array (.builtin .byte), .builtin .error, .nil]) = .ok (some made) ∧
        made.field? "dataType" = some (.text "binary") := by
  have taken : BlobUse.output.Takes imagesProgram latestImage
      (.union [.array (.builtin .byte), .builtin .error, .nil]) :=
    (Output.check_eq_ok_iff (by decide)).2 ⟨.array (.builtin .byte), rfl, by decide +kernel⟩
  obtain ⟨value, part, path, word, -⟩ := blob_declared_as_written .output taken
  obtain rfl := Option.some.inj part
  obtain ⟨b, there⟩ := path.2 ⟨.literal "images/latest", by decide +kernel⟩
  obtain ⟨made, rfl, declared⟩ := word b there
  exact ⟨taken, made, there, declared⟩

/-- Every use takes a name for bytes, but declares a text, and an output is encoded as JSON. -/
theorem blob_not_declared_behind_alias :
    valueType (.named "Image") = some (.named "Image") ∧
      imagesProgram.resolveAlias (.named "Image") = .array (.builtin .byte) ∧
      (∀ use : BlobUse, use.Takes imagesProgram latestImage (.named "Image") ∧
        ∃ made, use.binding latestImage (.named "Image") = .ok (some made) ∧
          made.field? "dataType" = some (.text "string")) ∧
      Output.blob.marshal (some "ret0") (.named "Image") =
        .marshal "outMsg" .blobOutput (some "ret0") .json := by
  have data : isBlobData imagesProgram (.named "Image") = true := by decide +kernel
  have taken (use : BlobUse) : use.Takes imagesProgram latestImage (.named "Image") := by
    cases use with
    | trigger => exact data
    | input =>
      apply (Role.check_eq_ok_iff rfl).2
      exact ⟨by simp, .named "Image", withoutNil_named, data⟩
    | output => exact (Output.check_eq_ok_iff (by decide)).2 ⟨_, valueType_named, data⟩
  refine ⟨valueType_named, by decide +kernel, fun use => ⟨taken use, ?_⟩, by decide +kernel⟩
  obtain ⟨path, word⟩ := (taken use).binding valueType_named
  obtain ⟨b, there⟩ := path.2 ⟨.literal "images/latest", by decide +kernel⟩
  obtain ⟨made, rfl, declared⟩ := word b there
  exact ⟨made, there, declared⟩

end FunctionApp
