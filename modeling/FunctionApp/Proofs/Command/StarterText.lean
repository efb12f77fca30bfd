import FunctionApp.Build.Run
import FunctionApp.Command.Starter
import FunctionApp.Proofs.Yaml.LineTokens
import Mathlib

/-!
# What the files of a new project say

The configuration and the program of a new project are documents in lines, in which the name of the
project is a plain scalar. Where the name may be written plain, the configuration that is read has
that name and the defaults (`read_configText`), and the program is the sample program of that name
(`read_programText`), which makes an app of three functions without a diagnostic (`analyze_sample`).
-/

namespace FunctionApp.Starter

open Yaml

/-! ## The files in lines -/

def configLines (name : String) : List Line :=
  [.comment " fnforge build configuration",
    .entry 0 false "name" (.plain name),
    .entry 0 false "program" (.plain "program.yaml"),
    .comment (" binary: target/" ++ name ++ ".jar"),
    .empty,
    .entry 0 false "deployment" .nothing,
    .entry 2 false "target" (.plain "azure-functions"),
    .entry 2 false "native" (.plain "false")]

/-- The lines of the sample program behind its name. -/
def sampleLines : List Line :=
  [.entry 0 false "types" .nothing,
    .entry 2 false "Greeting" .nothing,
    .entry 4 false "record" .nothing,
    .entry 6 false "fields" .nothing,
    .entry 8 false "name" (.plain "string"),
    .entry 0 false "documents" .nothing,
    .entry 2 true "name" (.plain "main"),
    .entry 4 false "imports" .nothing,
    .entry 6 false "af" (.plain "azure_functions"),
    .entry 4 false "listeners" .nothing,
    .entry 6 true "name" (.plain "ep"),
    .entry 8 false "type" (.quoted "af:HttpListener"),
    .entry 4 false "services" .nothing,
    .entry 6 true "path" (.plain "/hello"),
    .entry 8 false "listener" (.plain "ep"),
    .entry 8 false "functions" .nothing,
    .entry 10 true "accessor" (.plain "get"),
    .entry 12 false "params" .nothing,
    .entry 14 true "name" (.plain "name"),
    .entry 16 false "type" (.plain "string"),
    .entry 12 false "returns" .nothing,
    .entry 14 false "type" (.plain "string"),
    .entry 10 true "accessor" (.plain "post"),
    .entry 12 false "params" .nothing,
    .entry 14 true "name" (.plain "greeting"),
    .entry 16 false "type" (.plain "Greeting"),
    .entry 12 false "returns" .nothing,
    .entry 14 false "type" (.quoted "json|error"),
    .entry 6 true "name" (.plain "orders"),
    .entry 8 false "listener_type" (.quoted "af:QueueListener"),
    .entry 8 false "annotations" .nothing,
    .entry 10 true "name" (.quoted "af:QueueTrigger"),
    .entry 12 false "fields" .nothing,
    .entry 14 false "queueName" (.plain "orders-in"),
    .entry 8 false "functions" .nothing,
    .entry 10 true "name" (.plain "onOrder"),
    .entry 12 false "params" .nothing,
    .entry 14 true "name" (.plain "order"),
    .entry 16 false "type" (.plain "json"),
    .entry 12 false "returns" .nothing,
    .entry 14 false "type" (.plain "json"),
    .entry 14 false "annotations" .nothing,
    .entry 16 true "name" (.quoted "af:QueueOutput"),
    .entry 18 false "fields" .nothing,
    .entry 20 false "queueName" (.plain "orders-out")]

def programLines (name : String) : List Line :=
  .comment " Typed program model" :: .entry 0 false "name" (.plain name) :: sampleLines

theorem toList_linesText (texts : List String) :
    (linesText texts).toList = (texts.map fun text => text.toList ++ ['\n']).flatten := by
  rw [linesText, String.toList_join, List.flatMap_def, List.map_map]
  congr 1
  exact List.map_congr_left fun text _ => String.toList_append

theorem toList_configText (name : String) :
    (configText name).toList = printLines (configLines name) := by
  rw [configText, toList_linesText, printLines_eq_flatten]
  simp [configLines, Line.print, Content.print]

theorem toList_programText (name : String) :
    (programText name).toList = printLines (programLines name) := by
  rw [programText, toList_linesText, printLines_eq_flatten]
  simp [programLines, sampleLines, Line.print, Content.print]

/-! ## The sample program -/

/-- The settings of a new project, which are the defaults. -/
def sampleProject (name : String) : Project :=
  ⟨name, "program.yaml", none, "target", "azure_functions", .default, .default⟩

theorem diagnostics_of_sampleProject {name : String} {c : Config}
    (h : c.project = sampleProject name) : (BuildOptions.ofConfig c).diagnostics = [] := by
  have known : c.target = .ok .cloud := by
    rw [Config.target, h]
    rfl
  show c.diagnostics = []
  rw [Config.diagnostics, known]

/-- The program of a new project: a resource for each of two methods, and a queue handler. -/
def sampleProgram (name : String) : Program :=
  let at_ : Location := ⟨"main", 0, 0⟩
  let get : Function :=
    ⟨"get", .resource, some "get", [], [⟨"name", .required, .builtin .string, [], at_⟩],
      ⟨.builtin .string, [], at_⟩, at_⟩
  let post : Function :=
    ⟨"post", .resource, some "post", [], [⟨"greeting", .required, .named "Greeting", [], at_⟩],
      ⟨.union [.builtin .json, .builtin .error], [], at_⟩, at_⟩
  let onOrder : Function :=
    ⟨"onOrder", .remote, none, [], [⟨"order", .required, .builtin .json, [], at_⟩],
      ⟨.builtin .json, [⟨"af:QueueOutput", [("queueName", .literal "orders-out")], at_⟩], at_⟩, at_⟩
  let hello : Service := ⟨none, ["hello"], .variable "ep", [], [get, post], at_⟩
  let orders : Service :=
    ⟨some "orders", [], .inline "af:QueueListener",
      [⟨"af:QueueTrigger", [("queueName", .literal "orders-in")], at_⟩], [onOrder], at_⟩
  ⟨name, [("Greeting", .record ⟨[("name", .builtin .string)], none⟩)], [],
    [⟨"main", [("af", "azure_functions")], [⟨"ep", "af:HttpListener", at_⟩], [hello, orders], []⟩]⟩

/-- The sample program makes three functions, and nothing is reported. -/
theorem analyze_sample (name : String) :
    ((App.analyze (sampleProgram name) []).diagnostics,
      (App.analyze (sampleProgram name) []).functionCount) = ([], 3) := by
  cbv

/-! ## Reading the files -/

section Plain

variable {name : String} (plain : isPlain name.toList = true)

include plain

theorem areFormed_configLines : AreFormed (configLines name) where
  each := by
    have comment : (Line.comment (" binary: target/" ++ name ++ ".jar")).isFormed = true := by
      have inner : name.toList.all (fun c => isAllowed c && !isBreak c) = true := by
        rw [List.all_eq_true]
        intro c hc
        rw [isAllowed_of_isPlain plain c hc, noBreak_of_isPlain plain c hc]
        rfl
      rw [Line.isFormed, String.toList_append, String.toList_append, List.all_append,
        List.all_append, inner]
      decide
    simp only [configLines, List.forall_mem_cons]
    exact ⟨by decide, plain, by decide, comment, by decide, by decide, by decide, by decide,
      List.forall_mem_nil _⟩
  aligned := rfl

example : ∀ line ∈ configLines "shop", line.isFormed = true := by decide +kernel

theorem read_configText (base : String) : Config.read (configText name) base =
    .ok ⟨sampleProject name, base, Path.join base configFile, configText name⟩ := by
  have tokens := tokens_print (areFormed_configLines plain)
  rw [← toList_configText] at tokens
  have read : decode Project.readProject (configText name) = .ok (sampleProject name) := by
    rw [decode, Document.read, tokens]
    cbv
  rw [Config.read, read]
  rfl

theorem areFormed_programLines : AreFormed (programLines name) where
  each := by
    have sample : ∀ x ∈ sampleLines, x.isFormed = true := by decide +kernel
    simp only [programLines, List.forall_mem_cons]
    exact ⟨by decide, plain, sample⟩
  aligned := rfl

example : ∀ line ∈ programLines "shop", line.isFormed = true := by decide +kernel

set_option maxRecDepth 4000 in
theorem read_programText : Program.read (programText name) = .ok (sampleProgram name) := by
  have tokens := tokens_print (areFormed_programLines plain)
  rw [← toList_programText] at tokens
  -- The nodes and what they mean are computed, with a name that stays as it is.
  obtain ⟨document, read, written, shape, meaning⟩ : ∃ document,
      Document.read (programText name) = .ok document ∧ ∃ written,
        Written.program document.root ⟨document, 128⟩ 0 = .ok (written, 0) ∧
          Program.ofWritten written = .ok (sampleProgram name) := by
    refine ⟨?document, ?read, ?written, ?shape, ?meaning⟩
    case read =>
      rw [Document.read, tokens]
      conv =>
        lhs
        cbv
    case shape => rfl
    case meaning => with_unfolding_all rfl
  rw [Program.read, Written.Program.read, decode, read]
  simp only [bind, Except.bind, shape]
  exact meaning

end Plain

end FunctionApp.Starter
