import FunctionApp.Proofs.Package.Phases

/-!
# How a native build comes out

A native build is a step between the copying of a program and the writing of the settings. It is not
asked for, or fails and leaves the program, or takes the program away for its executable
(`nativeOutcome`, `buildNative_cases`).
-/

namespace FunctionApp

open FileTree Disk

namespace Artifact

variable {o : BuildOptions} {functions : List AppFunction} {tree after : FileTree} {root : String}
  {builder : Option NativeBuilder} {binary : Option String} {contents : Contents}

/-- Whether a builder leaves an executable for a program, or why it fails. -/
def nativeOutcome (root : String) (tree : FileTree) :
    Option NativeBuilder → Option String → Except Failure Bool
  | some b, some file =>
    ((b.build root file (executableStem file)).run tree).1.map fun _ => true
  | _, _ => .ok false

/-- **How a native build goes**: nothing is asked for, or it fails, or it succeeds and the program is
taken away. -/
theorem buildNative_cases {built : Except Failure Bool}
    (h : (buildNative root builder binary).run tree = (.ok built, after)) :
    ((builder = none ∨ binary = none) ∧ built = .ok false ∧ after = tree) ∨
    ∃ b file, builder = some b ∧ binary = some file ∧
      ((∃ failure, built = .error failure ∧
          (b.build root file (executableStem file)).run tree = (.error failure, after)) ∨
        ∃ there, built = .ok true ∧
          (b.build root file (executableStem file)).run tree = (.ok (), there) ∧
          there.removeFile (Path.join root file) = .ok after) := by
  unfold buildNative at h
  split at h
  · next b file =>
    refine .inr ⟨b, file, rfl, rfl, ?_⟩
    obtain ⟨result, there, hb, h⟩ := run_bind_eq_ok.1 h
    rw [run_attempt, Prod.mk.injEq, Except.ok.injEq] at hb
    obtain ⟨rfl, rfl⟩ := hb
    rcases hr : (b.build root file (executableStem file)).run tree with ⟨failure | _, there⟩
    · rw [hr] at h
      cases h
      exact .inl ⟨failure, rfl, rfl⟩
    · rw [hr] at h
      obtain ⟨_, removed, hd, h⟩ := run_bind_eq_ok.1 h
      cases h
      refine .inr ⟨there, rfl, rfl, ?_⟩
      rw [Disk.removeFile, run_change] at hd
      split at hd
      · next ht =>
        cases hd
        exact ht
      · cases hd
  · next hn =>
    cases h
    refine .inl ⟨?_, rfl, rfl⟩
    cases builder with
    | none => exact .inl rfl
    | some b =>
      cases binary with
      | none => exact .inr rfl
      | some file => exact absurd rfl (hn b file rfl)

theorem built_of_buildNative {built : Except Failure Bool}
    (h : (buildNative root builder binary).run tree = (.ok built, after)) :
    built = nativeOutcome root tree builder binary := by
  rcases buildNative_cases h with
    ⟨rfl | rfl, rfl, _⟩ | ⟨b, file, rfl, rfl, ⟨failure, rfl, hr⟩ | ⟨there, rfl, hr, _⟩⟩
  · rfl
  · cases builder <;> rfl
  · rw [nativeOutcome, hr]
    rfl
  · rw [nativeOutcome, hr]
    rfl

/-- The contents of an app are written descriptors first, and its program before the native build. -/
theorem run_writeContents_eq_ok :
    (writeContents o functions builder).run tree = (.ok contents, after) ↔
      ∃ described placed,
        (functions.mapM (writeDescriptor o.functionDir)).run tree =
          (.ok contents.descriptors, described) ∧
        (copyBinary o o.functionDir).run described = (.ok contents.binary, placed) ∧
        (buildNative o.functionDir builder contents.binary).run placed =
          (.ok contents.built, after) := by
  unfold writeContents
  constructor
  · intro h
    obtain ⟨descriptors, described, hd, h⟩ := run_bind_eq_ok.1 h
    obtain ⟨binary, placed, hb, h⟩ := run_bind_eq_ok.1 h
    obtain ⟨built, after, hn, h⟩ := run_bind_eq_ok.1 h
    cases h
    exact ⟨described, placed, hd, hb, hn⟩
  · rintro ⟨described, placed, hd, hb, hn⟩
    exact run_bind_eq_ok.2 ⟨_, described, hd, run_bind_eq_ok.2 ⟨_, placed, hb,
      run_bind_eq_ok.2 ⟨_, after, hn, rfl⟩⟩⟩

end Artifact

end FunctionApp
