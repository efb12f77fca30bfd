import FunctionApp.Config.Basic
import FunctionApp.Proofs.Yaml.Records

/-!
# Where an unsupported target is reported

A configuration's target is the value under `target` in the mapping under `deployment`. One that is
not supported is reported once, and at the first line of the text that begins with `target:`. That
line is found without a look at the structure of the text, so that it need not be the line of the key
(`target_reported_at`).
-/

namespace FunctionApp

namespace Yaml.Document

/-- The entries under `target` in the mappings under `deployment`. -/
def targetEntries (document : Document) : List (Node × Node) :=
  (document.under "deployment" document.root).flatMap fun entry => document.under "target" entry.2

end Yaml.Document

/-! ## The deployment that is read -/

namespace Project

open Yaml Yaml.Decode

variable {scope : Scope} {node : Node} {n m : Nat}

theorem target_of_readDeployment {d : Deployment}
    (h : readDeployment node scope n = .ok (d, m)) (hd : Target.ofName? d.target = none) :
    ∃ entry, scope.document.under "target" node = [entry] ∧
      scope.document.textOf? entry.2 = some d.target := by
  obtain ⟨fields, depth, k, h, known⟩ := record_eq_ok h
  obtain ⟨once, first⟩ := known "target" (by decide)
  obtain ⟨target, k', ht, h⟩ := bind_returns.1 h
  have reads : d.target = target := by
    obtain ⟨_, _, -, h⟩ := bind_returns.1 h
    obtain ⟨_, _, -, h⟩ := bind_returns.1 h
    obtain ⟨_, _, -, h⟩ := bind_returns.1 h
    obtain ⟨_, _, -, h⟩ := bind_returns.1 h
    rw [← (pure_returns.1 h).1]
  have ne : target ≠ Deployment.default.target := by
    rintro rfl
    rw [reads] at hd
    cases hd
  obtain ⟨entry, hu, ht⟩ := under_of_ne_default once first ht ne
  exact ⟨entry, hu, (textOf_of_text ht).trans (congrArg some reads.symm)⟩

theorem deployment_of_readProject {p : Project}
    (h : readProject node scope n = .ok (p, m)) (hp : p.deployment ≠ .default) :
    ∃ entry depth k l, scope.document.under "deployment" node = [entry] ∧
      readDeployment entry.2 ⟨scope.document, depth⟩ k = .ok (p.deployment, l) := by
  obtain ⟨fields, depth, k, h, known⟩ := record_eq_ok h
  obtain ⟨once, first⟩ := known "deployment" (by decide)
  obtain ⟨_, _, -, h⟩ := bind_returns.1 h
  obtain ⟨_, _, -, h⟩ := bind_returns.1 h
  obtain ⟨_, _, -, h⟩ := bind_returns.1 h
  obtain ⟨_, _, -, h⟩ := bind_returns.1 h
  obtain ⟨_, _, -, h⟩ := bind_returns.1 h
  obtain ⟨deployment, l, hd, h⟩ := bind_returns.1 h
  obtain ⟨_, _, -, h⟩ := bind_returns.1 h
  have reads : p.deployment = deployment := by rw [← (pure_returns.1 h).1]
  rw [reads] at hp ⊢
  obtain ⟨entry, hu, hd⟩ := under_of_ne_default once first hd hp
  exact ⟨entry, depth, _, _, hu, hd⟩

end Project

namespace Config

open Yaml

/-- Whether a line begins with a word after blanks. -/
def beginsWith (word line : List Char) : Bool := word.isPrefixOf (Text.trimStart line)

theorem findLine?_line (word : List Char) (n : Nat) (ls : List (List Char)) :
    (findLine? word n ls).map Prod.fst = (ls.findIdx? (beginsWith word)).map (· + n) := by
  induction ls generalizing n with
  | nil => rfl
  | cons line rest ih =>
    rw [findLine?, List.findIdx?_cons]
    change (if beginsWith word line then _ else _ : Option (Nat × Nat)).map Prod.fst = _
    split
    · next h => simp
    · next h =>
      rw [ih (n + 1), Option.map_map]
      congr 1
      funext i
      simp [Nat.add_assoc, Nat.add_comm 1]

theorem line_keyLocation (c : Config) (key : String) :
    (c.keyLocation key).line = (((Text.lines c.source.toList).findIdx?
      (beginsWith (key ++ ":").toList)).map (· + 1)).getD 0 := by
  rw [← findLine?_line, keyLocation]
  cases findLine? (key ++ ":").toList 1 (Text.lines c.source.toList) <;> rfl

theorem read_eq_ok {source basePath : String} {c : Config} (h : read source basePath = .ok c) :
    c.source = source ∧ ∃ document count, Document.read source = .ok document ∧
      Project.readProject document.root ⟨document, 128⟩ 0 = .ok (c.project, count) := by
  obtain ⟨project, hp, hc⟩ := bind_eq_ok.1 h
  cases hc
  obtain ⟨document, hd, hp⟩ := bind_eq_ok.1 hp
  obtain ⟨⟨_, count⟩, hr, hp⟩ := bind_eq_ok.1 hp
  cases hp
  exact ⟨rfl, document, count, hd, hr⟩

/-- **Where an unsupported target is reported.** It is reported once, and it is the value of the one
entry under `target` in the mapping under `deployment`. The line reported is the first one of the text
that begins with `target:`, if there is one. So it is the line of that entry's key if and only if no
line before the key's begins with `target:` and the key's does. -/
theorem target_reported_at {source basePath : String} {c : Config}
    (h : read source basePath = .ok c) (hn : Target.ofName? c.project.deployment.target = none) :
    ∃ document key value line location,
      Yaml.Document.read source = .ok document ∧
      document.targetEntries = [(key, value)] ∧
      document.textOf? value = some c.project.deployment.target ∧
      key.line? = some line ∧
      c.diagnostics = [(Problem.unsupportedTarget c.project.deployment.target).at location] ∧
      location.line = (((Text.lines source.toList).findIdx?
        (beginsWith "target:".toList)).map (· + 1)).getD 0 ∧
      (location.line = line + 1 ↔
        (Text.lines source.toList).findIdx? (beginsWith "target:".toList) = some line) := by
  obtain ⟨rfl, document, count, hd, hp⟩ := read_eq_ok h
  have set : c.project.deployment ≠ .default := by
    intro he
    rw [he] at hn
    cases hn
  obtain ⟨deployment, depth, k, l, once, hr⟩ := Project.deployment_of_readProject hp set
  obtain ⟨⟨key, value⟩, under, reads⟩ := Project.target_of_readDeployment hr hn
  have entries : document.targetEntries = [(key, value)] := by
    rw [Yaml.Document.targetEntries, once, List.flatMap_singleton, under]
  have member : (key, value) ∈ document.under "target" deployment.2 := by
    rw [under]
    exact List.mem_singleton_self _
  obtain ⟨line, written⟩ := Decode.line_of_mem_under member (by decide)
  have reported : c.diagnostics =
      [(Problem.unsupportedTarget c.project.deployment.target).at (c.keyLocation "target")] := by
    rw [diagnostics, target, hn]
  have found := c.line_keyLocation "target"
  refine ⟨document, key, value, line, _, hd, entries, reads, written, reported, found, ?_⟩
  rw [found]
  change _ ↔ (Text.lines c.source.toList).findIdx? (beginsWith ("target" ++ ":").toList) = _
  cases (Text.lines c.source.toList).findIdx? (beginsWith ("target" ++ ":").toList) <;> simp

/-- A project that is deployed to a target that is not supported. -/
def lambdaProject (name : String) : Project :=
  { name, program := "program.yaml", binary := none, targetDir := "target",
    functionDir := "azure_functions",
    deployment := { Deployment.default with target := "aws-lambda" }, host := .default }

def lambdaSource : String := "name: hello\ndeployment:\n  target: aws-lambda\n"

theorem read_lambdaSource :
    read lambdaSource "." = .ok ⟨lambdaProject "hello", ".", "./fnforge.yaml", lambdaSource⟩ := by
  have reads : Yaml.decode Project.readProject lambdaSource = .ok (lambdaProject "hello") := by
    decide +kernel
  rw [read, reads]
  rfl

theorem target_reported_at_lambda :
    ∃ c : Config, (read lambdaSource "." = .ok c ∧
        Target.ofName? c.project.deployment.target = none) ∧
      ∃ document key value line location,
        Yaml.Document.read lambdaSource = .ok document ∧
        document.targetEntries = [(key, value)] ∧
        document.textOf? value = some c.project.deployment.target ∧
        key.line? = some line ∧
        c.diagnostics = [(Problem.unsupportedTarget c.project.deployment.target).at location] ∧
        location.line = (((Text.lines lambdaSource.toList).findIdx?
          (beginsWith "target:".toList)).map (· + 1)).getD 0 ∧
        (location.line = line + 1 ↔
          (Text.lines lambdaSource.toList).findIdx? (beginsWith "target:".toList) = some line) :=
  ⟨_, ⟨read_lambdaSource, rfl⟩, target_reported_at read_lambdaSource rfl⟩

/-- A configuration with a key of its own before the key of its target. -/
def shadowedSource : String := "name: shop\ntarget: local\ndeployment:\n  target: aws-lambda\n"

/-- The key of the target is on the fourth line, and the second one is reported. -/
theorem target_reported_elsewhere :
    (read shadowedSource ".").toOption.map (·.project) = some (lambdaProject "shop") ∧
      Target.ofName? (lambdaProject "shop").deployment.target = none ∧
      (Yaml.Document.read shadowedSource).toOption.map
        (fun document => document.targetEntries.map fun entry => entry.1.line?) = some [some 3] ∧
      (read shadowedSource ".").toOption.map diagnostics =
        some [(Problem.unsupportedTarget "aws-lambda").at ⟨"fnforge.yaml", 2, 1⟩] :=
  ⟨by decide +kernel, rfl, by decide +kernel, by decide +kernel⟩

end Config

end FunctionApp
