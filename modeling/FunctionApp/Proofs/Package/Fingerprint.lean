import FunctionApp.Proofs.Json.Delimited
import FunctionApp.Proofs.Package.Native
import FunctionApp.Proofs.Text.Bytes

/-!
# What the fingerprint of an app is made of

A fingerprint is the hash of the descriptors and of the host configuration of an app, one behind the
other with nothing between them. They can be told apart nevertheless, since each is the text of an
object: runs that hash the same bytes wrote the same texts (`texts_of_stream`).
-/

namespace FunctionApp

open FileTree Disk

/-! ## The host configuration -/

namespace BuildOptions

theorem exists_setMember (key : String) (value json : Json) :
    ∃ members, setMember key value json = .object members := by
  cases json
  all_goals exact ⟨_, rfl⟩

/-- The host configuration is an object, whatever was there before. -/
theorem encloses_hostOver (o : BuildOptions) (previous binary : Option String) (native : Bool) :
    Json.Encloses (o.hostOver previous binary native).pretty.toList := by
  obtain ⟨members, e⟩ : ∃ members, o.hostOver previous binary native = .object members :=
    exists_setMember _ _ _
  rw [e]
  exact Json.encloses_pretty members

end BuildOptions

namespace Artifact

variable {o o' : BuildOptions} {functions functions' : List AppFunction}
  {diagnostics diagnostics' : Diagnostics} {builder builder' : Option NativeBuilder}
  {tree tree' after after' : FileTree} {artifact artifact' : Artifact}
  {descriptors descriptors' : List String} {host host' : String}

/-! ## What a run hashes -/

/-- The bytes of which a fingerprint is the hash. -/
def stream (descriptors : List String) (host : String) : List UInt8 :=
  (descriptors ++ [host]).flatMap fun text => text.toUTF8.toList

/-- A run wrote these descriptors, one for each function and in their order, and this host
configuration, and its fingerprint is the hash of them. -/
structure Wrote (o : BuildOptions) (functions : List AppFunction) (tree after : FileTree)
    (artifact : Artifact) (descriptors : List String) (host : String) : Prop where
  written : ∃ cleared described, (clear o.functionDir).run tree = (.ok (), cleared) ∧
    (functions.mapM (writeDescriptor o.functionDir)).run cleared = (.ok descriptors, described)
  texts : descriptors = functions.map fun f => f.descriptor.pretty
  settled : after.readText (Path.join o.functionDir hostFile) = .ok host
  hashed : artifact.fingerprint = Sha256.hex (Sha256.hash (stream descriptors host))

/-- The texts that are written for functions are those of their descriptors. -/
theorem descriptors_of_run {root : String}
    (h : (functions.mapM (writeDescriptor root)).run tree = (.ok descriptors, after)) :
    descriptors = functions.map fun f => f.descriptor.pretty := by
  induction functions generalizing tree descriptors with
  | nil =>
    cases h
    rfl
  | cons f functions ih =>
    obtain ⟨text, written, texts, hf, hr, rfl⟩ := run_mapM_cons_eq_ok.1 h
    obtain ⟨⟨⟩, made, -, hf⟩ := run_bind_eq_ok.1 hf
    obtain ⟨⟨⟩, put, -, hf⟩ := run_bind_eq_ok.1 hf
    cases hf
    rw [List.map_cons, ih hr]

/-- A run that succeeds writes texts of objects only. -/
theorem exists_wrote
    (h : (generate o functions diagnostics builder).run tree = (.ok artifact, after)) :
    ∃ descriptors host, Wrote o functions tree after artifact descriptors host ∧
      ∀ text ∈ descriptors ++ [host], Json.Encloses text.toList := by
  obtain ⟨kept, cleared, contents, written, -, hc, hw, hs, hr⟩ := run_generate_eq_ok.1 h
  obtain ⟨described, -, hd, -, -⟩ := run_writeContents_eq_ok.1 hw
  refine ⟨contents.descriptors, contents.hostText o kept.host,
    ⟨⟨cleared, described, hc, hd⟩, descriptors_of_run hd, (readText_settle hs).1, ?_⟩,
    fun text ht => ?_⟩
  · rw [Contents.result] at hr
    cases hb : contents.built with
    | error failure =>
      rw [hb] at hr
      cases hr
    | ok native =>
      rw [hb] at hr
      cases hr
      rfl
  · rcases List.mem_append.1 ht with hd' | hh
    · rw [descriptors_of_run hd] at hd'
      obtain ⟨f, -, rfl⟩ := List.mem_map.1 hd'
      exact Json.encloses_pretty _
    · rw [List.mem_singleton.1 hh]
      exact BuildOptions.encloses_hostOver o _ _ _

/-! ## Telling the texts apart -/

/-- The bytes of texts of objects tell how many there are and which. -/
theorem texts_eq_of_stream_eq (h : ∀ text ∈ descriptors ++ [host], Json.Encloses text.toList)
    (h' : ∀ text ∈ descriptors' ++ [host'], Json.Encloses text.toList)
    (same : stream descriptors host = stream descriptors' host') :
    descriptors = descriptors' ∧ host = host' := by
  have texts : descriptors ++ [host] = descriptors' ++ [host'] :=
    Json.eq_of_flatMap_eq h h' (Text.flatMap_toUTF8_inj.1 same)
  exact List.append_singleton_inj.1 texts

/-- **Runs that hash the same bytes wrote the same texts**: as many descriptors, the same ones in
the same order, and the same host configuration. -/
theorem texts_of_stream
    (h : (generate o functions diagnostics builder).run tree = (.ok artifact, after))
    (h' : (generate o' functions' diagnostics' builder').run tree' = (.ok artifact', after')) :
    ∃ descriptors host descriptors' host',
      Wrote o functions tree after artifact descriptors host ∧
      Wrote o' functions' tree' after' artifact' descriptors' host' ∧
      (stream descriptors host = stream descriptors' host' →
        descriptors.length = descriptors'.length ∧ descriptors = descriptors' ∧ host = host') := by
  obtain ⟨descriptors, host, wrote, objects⟩ := exists_wrote h
  obtain ⟨descriptors', host', wrote', objects'⟩ := exists_wrote h'
  refine ⟨descriptors, host, descriptors', host', wrote, wrote', fun same => ?_⟩
  obtain ⟨front, last⟩ := texts_eq_of_stream_eq objects objects' same
  exact ⟨congrArg List.length front, front, last⟩

/-- A function whose schedule is a text with a brace and a quotation mark. -/
def bracedFunction : AppFunction where
  name := "tick"
  document := "main"
  location := .startOf "main"
  trigger := (Binding.make .timerTrigger .in_ "timer").with_ "schedule" (.text "\x7d\"")
  others := []
  shim := ⟨"tick", "tick", []⟩

/-- A build of functions into the directory `app` of an empty tree. -/
def freshApp (functions : List AppFunction) : Except Failure Artifact × FileTree :=
  (generate (optionsFor none) functions [] none).run ⟨[], []⟩

/-- An app with a function hashes other bytes than one without. -/
theorem texts_of_stream_fresh :
    ∃ artifact after artifact' after' descriptors host descriptors' host',
      freshApp [bracedFunction] = (.ok artifact, after) ∧ freshApp [] = (.ok artifact', after') ∧
      Wrote (optionsFor none) [bracedFunction] ⟨[], []⟩ after artifact descriptors host ∧
      Wrote (optionsFor none) [] ⟨[], []⟩ after' artifact' descriptors' host' ∧
      stream descriptors host ≠ stream descriptors' host' := by
  have runs : ((freshApp [bracedFunction]).1.isOk && (freshApp []).1.isOk) = true := by
    decide +kernel
  obtain ⟨run, run'⟩ := Bool.and_eq_true_iff.1 runs
  obtain ⟨artifact, after, hr⟩ := isOk_iff_exists.1 run
  obtain ⟨artifact', after', hr'⟩ := isOk_iff_exists.1 run'
  obtain ⟨descriptors, host, descriptors', host', wrote, wrote', told⟩ := texts_of_stream hr hr'
  refine ⟨artifact, after, artifact', after', descriptors, host, descriptors', host', hr, hr',
    wrote, wrote', fun same => ?_⟩
  have length := (told same).1
  rw [wrote.texts, wrote'.texts] at length
  cases length

end Artifact

end FunctionApp
