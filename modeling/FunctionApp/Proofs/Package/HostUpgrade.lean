import FunctionApp.Proofs.Json.Paths
import FunctionApp.Proofs.Package.HostConfig
import FunctionApp.Proofs.Package.Native

/-!
# The host configuration over a previous one

The host configuration that a build writes keeps what it does not have to say itself. Whatever was
there before, it is an object with all values that the options give and with the description of the
program that is there, and a member of the previous configuration that the options do not name stays
as it was (`Upgraded`). A build writes it so whether the native executable was asked for, was built or
was not (`host_upgraded`).
-/

namespace FunctionApp

open FileTree Disk Json

namespace BuildOptions

variable {o : BuildOptions} {previous binary : Option String} {native : Bool}

/-- Where a host configuration says how the program is started. -/
def descriptionPath : List String := ["customHandler", "description"]

/-- A host configuration over a previous text, with a description of the program. -/
structure Upgraded (o : BuildOptions) (previous : Option String) (description host : Json) :
    Prop where
  object : ∃ members, host = .object members
  /-- Every value that the options give is there. -/
  generated : ∀ path value, o.hostConfig.at? path = some value →
    (∀ members, value ≠ .object members) → host.at? path = some value
  /-- Every object that the options give is there. -/
  objects : ∀ path members, o.hostConfig.at? path = some (.object members) →
    ∃ members', host.at? path = some (.object members')
  description : host.at? descriptionPath = some description
  /-- Of an object that is there in both, a member that the options do not name is as it was. -/
  kept : ∀ text old, previous = some text → Json.read text = .ok (.object old) →
    ∀ path members tops key, (Json.object old).at? path = some (.object members) →
      o.hostConfig.at? path = some (.object tops) → key ∉ keys tops →
        ¬descriptionPath <+: path → host.at? (path ++ [key]) = members.lookup key

/-- The description is assigned without a failure, whatever was there before. -/
theorem assign?_description (o : BuildOptions) (previous binary : Option String) (native : Bool) :
    (overlay (previousHost previous) o.hostConfig).assign? descriptionPath
        (o.handlerDescription binary native) =
      some (o.hostOver previous binary native) := by
  obtain ⟨hosts, handlers, laid, -, found, -⟩ := overlay_hostConfig o previous
  rw [laid, hostOver_eq laid found, descriptionPath]
  refine assign?_cons_eq_some.2 ⟨hosts, _, rfl, ?_, rfl⟩
  rw [found]
  refine assign?_cons_eq_some.2 ⟨handlers, _, rfl, ?_, rfl⟩
  rw [assign?]

/-- The options have an empty object in the place of the description. -/
theorem at?_description (o : BuildOptions) : o.hostConfig.at? descriptionPath = some (.object []) :=
  rfl

/-- Nothing that the options give stands behind the description. -/
theorem eq_descriptionPath {path : List String} (hp : descriptionPath <+: path)
    (h : (o.hostConfig.at? path).isSome = true) : path = descriptionPath := by
  obtain ⟨more, rfl⟩ := hp
  rw [at?_append, at?_description] at h
  cases more with
  | nil => exact List.append_nil _
  | cons key more =>
    rw [Option.bind_some, at?_object_cons] at h
    cases h

/-- The place of a value of the options other than an object is apart from the description. -/
theorem apart_of_not_object {path : List String} {value : Json}
    (h : o.hostConfig.at? path = some value) (hv : ∀ members, value ≠ .object members) :
    ¬descriptionPath <+: path ∧ ¬path <+: descriptionPath := by
  have ne : path ≠ descriptionPath := by
    rintro rfl
    rw [at?_description, Option.some.injEq] at h
    exact hv [] h.symm
  refine ⟨fun hp => ne (eq_descriptionPath hp (by rw [h]; rfl)), fun hp => ?_⟩
  obtain ⟨more, e⟩ := hp
  have further : more ≠ [] := fun en => ne (by rw [← e, en, List.append_nil])
  have there := at?_description o
  rw [← e, at?_append, h, Option.bind_some, at?_of_not_object hv further] at there
  cases there

/-- **A previous host configuration is upgraded**, whatever it was. -/
theorem upgraded_hostOver (o : BuildOptions) (previous binary : Option String) (native : Bool) :
    Upgraded o previous (o.handlerDescription binary native)
      (o.hostOver previous binary native) := by
  have assigned := assign?_description o previous binary native
  have keyed := (readable_hostConfig (P := fun _ => True) o 0).isKeyed
  refine ⟨?_, ?_, ?_, at?_of_assign? assigned, ?_⟩
  · have whole : ∃ members, (o.hostOver previous binary native).at? [] = some (.object members) :=
      exists_at?_of_assign? assigned List.nil_prefix (by decide)
    simpa using whole
  · intro path value h hv
    obtain ⟨below, above⟩ := apart_of_not_object h hv
    rw [at?_of_assign?_of_apart assigned below above]
    exact at?_overlay_of_not_object keyed h hv _
  · intro path members h
    by_cases ne : path = descriptionPath
    · obtain ⟨description, e, -⟩ :=
        readable_handlerDescription (P := fun _ => True) o binary native 0
      exact ⟨description, by rw [ne, at?_of_assign? assigned, e]⟩
    by_cases above : path <+: descriptionPath
    · exact exists_at?_of_assign? assigned above ne
    · have below : ¬descriptionPath <+: path := fun hp =>
        ne (eq_descriptionPath hp (by rw [h]; rfl))
      rw [at?_of_assign?_of_apart assigned below above]
      exact exists_at?_overlay_object keyed h _
  · intro text old htext hread path members tops key hm ht hk hp
    have unnamed : o.hostConfig.at? (path ++ [key]) = none := by
      rw [at?_concat, ht]
      exact lookup_eq_none.2 hk
    have above : ¬path ++ [key] <+: descriptionPath := fun h => by
      have there : (o.hostConfig.at? (path ++ [key])).isSome = true :=
        isSome_at?_of_prefix (by rw [at?_description]; rfl) h
      rw [unnamed] at there
      cases there
    have below : ¬descriptionPath <+: path ++ [key] := fun h =>
      (List.prefix_concat_iff.1 h).elim (fun e => above (e ▸ List.prefix_rfl)) hp
    have before : previousHost previous = .object old := by
      rw [previousHost, htext, Option.map_some, hread]
    rw [at?_of_assign?_of_apart assigned below above, before]
    exact at?_overlay_of_not_mem keyed hm ht hk

end BuildOptions

namespace Artifact

variable {o : BuildOptions} {functions : List AppFunction} {diagnostics : Diagnostics}
  {builder : Option NativeBuilder} {tree after : FileTree} {kept : Kept} {r : Rebuilt}

/-- Clears the directory and writes the functions and the program of an app, and gives the file name
of the program. -/
def placeProgram (o : BuildOptions) (functions : List AppFunction) : Disk (Option String) := do
  clear o.functionDir
  let _ ← functions.mapM (writeDescriptor o.functionDir)
  copyBinary o o.functionDir

/-- How far the host configuration is written: the program is placed and the native build has come to
its end. -/
theorem placed_of_rebuild (h : (rebuild o functions kept).run tree = (.ok r, after)) :
    ∃ placed written : FileTree, (placeProgram o functions).run tree = (.ok r.binary, placed) ∧
      r.built = nativeOutcome o.functionDir placed kept.builder r.binary ∧
      r.hostText = (o.hostOver kept.host r.binary (r.built.toOption.getD false)).pretty ∧
      written.write (Path.join o.functionDir hostFile) r.hostText.toUTF8 = .ok after := by
  rw [rebuild_eq] at h
  obtain ⟨⟨⟩, cleared, hc, h⟩ := run_bind_eq_ok.1 h
  obtain ⟨contents, written, hw, h⟩ := run_bind_eq_ok.1 h
  obtain ⟨⟨⟩, after, hh, h⟩ := run_bind_eq_ok.1 h
  cases h
  obtain ⟨described, placed, hd, hb, hn⟩ := run_writeContents_eq_ok.1 hw
  refine ⟨placed, written, ?_, built_of_buildNative hn, rfl, run_writeText_eq_ok.1 hh⟩
  exact run_bind_eq_ok.2 ⟨(), cleared, hc, run_bind_eq_ok.2 ⟨_, described, hd, hb⟩⟩

/-- What was written of the host configuration stays, however the build ends. -/
theorem readText_host_of_rebuild (hp : (prepare o diagnostics builder).run tree = (.ok kept, tree))
    (h : (rebuild o functions kept).run tree = (.ok r, after)) :
    ((generate o functions diagnostics builder).run tree).2.readText
      (Path.join o.functionDir hostFile) = .ok r.hostText := by
  obtain ⟨_, _, _, _, _, hw⟩ := placed_of_rebuild h
  have there := readText_write hw
  have restored : Keeps (fun t => t.readText (Path.join o.functionDir hostFile) = .ok r.hostText)
      (restore o kept) :=
    .change fun _ _ h hw =>
      readText_write_of_ne isPlain_hostFile isPlain_localSettingsFile (by decide) h hw
  have whole := Keeps.bind restored fun _ =>
    finish_keeps o functions r isPlain_hostFile (by decide) (by decide)
  rw [generate_eq, run_bind, hp]
  dsimp only
  rw [run_bind, h]
  exact whole after there

/-- **A build upgrades the host configuration**, if it comes to write it. It has the text of the
previous one, if there was one, and the description of the program that is there: of an executable if
and only if a native build was asked for and succeeded. No step of putting the configuration together
fails, it is what is left in its file, and it is read back as it was put together. -/
theorem host_upgraded (hp : (prepare o diagnostics builder).run tree = (.ok kept, tree))
    (hr : (rebuild o functions kept).run tree = (.ok r, after)) :
    Keepable (Path.join o.functionDir hostFile) kept.host tree ∧
    requiredBuilder o builder = .ok kept.builder ∧
    (∃ placed, (placeProgram o functions).run tree = (.ok r.binary, placed) ∧
      r.built = nativeOutcome o.functionDir placed kept.builder r.binary) ∧
    ∃ host description,
      description = o.handlerDescription r.binary (r.built.toOption.getD false) ∧
      (overlay (BuildOptions.previousHost kept.host) o.hostConfig).assign?
        BuildOptions.descriptionPath description = some host ∧
      o.Upgraded kept.host description host ∧
      ((generate o functions diagnostics builder).run tree).2.readText
        (Path.join o.functionDir hostFile) = .ok host.pretty ∧
      (BuildOptions.DoublesReadBack kept.host → Json.read host.pretty = .ok host) := by
  obtain ⟨-, -, required, -, previous⟩ := run_prepare_iff.1 hp
  obtain ⟨placed, _, hl, hn, ht, _⟩ := placed_of_rebuild hr
  refine ⟨previous, required, ⟨placed, hl, hn⟩, _, _, rfl,
    BuildOptions.assign?_description o kept.host r.binary _,
    BuildOptions.upgraded_hostOver o kept.host r.binary _, ?_,
    fun doubles => BuildOptions.read_hostOver doubles _ _⟩
  rw [← ht]
  exact readText_host_of_rebuild hp hr

/-- Options of an app that is compiled to a native executable. -/
def nativeOptionsFor (binary : String) : BuildOptions :=
  { optionsFor (some binary) with native := true }

/-- A builder that writes the executable and does nothing else. -/
def writingBuilder : NativeBuilder where
  description := "writer"
  build dir _ output := Disk.writeText (Path.join dir output) "native"

/-- A host configuration with members that the options do not name. -/
def olderHost : String :=
  "\x7b\"logging\":\x7b\x7d,\"customHandler\":\x7b\"description\":\x7b\"old\":1\x7d,\"port\":7\x7d\x7d"

theorem host_upgraded_native :
    let tree : FileTree := ⟨[(["app"], .directory), (["app", hostFile], .file olderHost.toUTF8),
      (["app.jar"], .file "jar".toUTF8)], []⟩
    ∃ (kept : Kept) (r : Rebuilt) (after : FileTree) (host : Json),
      (prepare (nativeOptionsFor "app.jar") [] (some writingBuilder)).run tree = (.ok kept, tree) ∧
      (rebuild (nativeOptionsFor "app.jar") [] kept).run tree = (.ok r, after) ∧
      ((generate (nativeOptionsFor "app.jar") [] [] (some writingBuilder)).run tree).2.readText
        (Path.join "app" hostFile) = .ok host.pretty ∧
      host.at? ["customHandler", "description"] =
        some (.object [("defaultExecutablePath", .text "app"), ("arguments", .array [])]) ∧
      host.at? ["customHandler", "port"] = some (.int 7) ∧
      host.at? ["logging"] = some (.object []) := by
  intro tree
  let kept : Kept := ⟨some writingBuilder, none, some olderHost⟩
  have prepared : (prepare (nativeOptionsFor "app.jar") [] (some writingBuilder)).run tree =
      (.ok kept, tree) :=
    run_prepare_iff.2 ⟨rfl, rfl, rfl, keepable_of_not_isFile (by decide +kernel),
      keepable_of_readText rfl⟩
  have run : (match ((rebuild (nativeOptionsFor "app.jar") [] kept).run tree).1 with
      | .ok r => r.binary == some "app.jar" && r.built.toOption == some true
      | .error _ => false) = true := by
    decide +kernel
  rcases hr : (rebuild (nativeOptionsFor "app.jar") [] kept).run tree with ⟨failure | r, after⟩
  · rw [hr] at run
    cases run
  rw [hr] at run
  obtain ⟨placed, native⟩ := Bool.and_eq_true_iff.1 run
  obtain ⟨-, -, -, host, description, said, -, upgraded, there, -⟩ :=
    @host_upgraded _ [] _ _ _ _ _ _ prepared hr
  rw [eq_of_beq placed, eq_of_beq native] at said
  have old : Json.read olderHost = .ok (.object [("logging", .object []),
      ("customHandler", .object [("description", .object [("old", .int 1)]), ("port", .int 7)])]) :=
    toOption_eq_some.1 (by decide +kernel)
  have kept := upgraded.kept olderHost _ rfl old
  have started : host.at? BuildOptions.descriptionPath =
      some (.object [("defaultExecutablePath", .text "app"), ("arguments", .array [])]) := by
    rw [upgraded.description, said]
    rfl
  exact ⟨_, r, after, host, prepared, hr, there, started,
    kept ["customHandler"] _ _ "port" rfl rfl (by decide) (by decide),
    kept [] _ _ "logging" rfl rfl (by decide) (by decide)⟩

end Artifact

end FunctionApp
