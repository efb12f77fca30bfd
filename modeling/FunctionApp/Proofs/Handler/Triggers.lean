import FunctionApp.Proofs.Handler.AliasContracts

/-!
# What triggers take behind aliases

A trigger takes a type by the end of its chain of aliases: a name is taken as its body is, also where
aliases refer to each other in circles (`accepted_behind_alias`). The searches behind this stop
differently, since the name of a circle at which `resolveAlias` stops depends on where it starts, and
`isAnydata` does not stop at names at all. But no trigger tells the names of a circle apart: they
hold plain data, as they lead to nothing else, and stand for no record, array or word.
-/

namespace FunctionApp

open TypeExpr

variable {program : Program} {ty other : TypeExpr} {name : String}

namespace Program

theorem isRecord_resolveAlias (program : Program) (ty : TypeExpr) :
    program.isRecord (program.resolveAlias ty) = program.isRecord ty :=
  (sameEnd_resolveAlias program ty).isRecord

/-- Where a chain has no end, the search for it stops at the name of an alias. -/
theorem IsEndless.resolveAlias_eq (h : program.IsEndless ty) :
    ∃ name body, program.resolveAlias ty = .named name ∧ program.alias? name = some body := by
  rcases resolveAlias_cases program ty with ⟨k, ends⟩ | stopped
  · exact absurd ends (h _ k)
  · exact stopped

theorem IsEndless.isRecord_eq_false (h : program.IsEndless ty) : program.isRecord ty = false := by
  obtain ⟨name, body, hn, ha⟩ := h.resolveAlias_eq
  unfold isRecord recordType?
  simp only [hn, alias?_eq_some_iff.1 ha]
  rfl

end Program

namespace Listener

/-- **Types with the same end are taken alike.** -/
theorem accepts_of_sameEnd (h : program.SameEnd ty other) (l : Listener) :
    l.accepts program ty = l.accepts program other := by
  have record : (program.isRecord (program.resolveAlias ty) &&
      program.isAnydata (program.resolveAlias ty)) =
        (program.isRecord (program.resolveAlias other) &&
          program.isAnydata (program.resolveAlias other)) := by
    simp only [Program.isRecord_resolveAlias, Program.isAnydata_resolveAlias, h.isRecord,
      h.isAnydata]
  cases l with
  | http => exact h.isAnydata
  | blob => exact h.isBlobData
  | cosmos =>
    dsimp only [accepts]
    rcases h.resolves with same | ⟨n, m, -, -, hn, hm, -, -⟩
    · rw [same]
    · simp only [hn, hm]
  | queue =>
    dsimp only [accepts]
    rcases h.resolves with same | ⟨n, m, -, -, hn, hm, -, -⟩
    · rw [same]
    · simpa only [hn, hm] using record
  | timer =>
    dsimp only [accepts]
    rcases h.resolves with same | ⟨n, m, -, -, hn, hm, -, -⟩
    · rw [same]
    · simpa only [hn, hm] using record

/-- Without an end there is plain data, which only requests can carry. -/
theorem accepts_of_isEndless (h : program.IsEndless ty) (l : Listener) :
    l.accepts program ty = true ↔ l = .http := by
  obtain ⟨n, -, hn, -⟩ := h.resolveAlias_eq
  have record : program.isRecord (.named n) = false := by
    rw [← hn, Program.isRecord_resolveAlias, h.isRecord_eq_false]
  cases l with
  | http => simpa [accepts] using Program.isAnydata_of_isEndless h
  | blob => simp [accepts, isBlobData, hn, isByteArray]
  | cosmos => simp [accepts, hn]
  | queue => simp [accepts, hn, record]
  | timer => simp [accepts, hn, record]

end Listener

/-- **A trigger takes an alias as it takes the body**, and so as it takes the end of the chain of
aliases behind it. Where the chain has no end, requests take it and no other trigger does. -/
theorem accepted_behind_alias (h : program.alias? name = some ty) (l : Listener) :
    (l.accepts program (.named name) = true ↔ l.accepts program ty = true) ∧
      (∀ r k, program.LeadsTo r k ty →
        (l.accepts program (.named name) = true ↔ l.accepts program r = true)) ∧
      (program.IsEndless ty → (l.accepts program (.named name) = true ↔ l = .http)) := by
  rw [Listener.accepts_of_sameEnd (Program.sameEnd_of_alias? h) l]
  refine ⟨Iff.rfl, fun r k ends => ?_, fun endless => Listener.accepts_of_isEndless endless l⟩
  have resolved := Program.sameEnd_resolveAlias program ty
  rw [Program.resolveAlias_of_leadsTo ends] at resolved
  rw [Listener.accepts_of_sameEnd resolved l]

/-- A program with two names for each other, and one for the records that documents are read as. -/
def circleProgram : Program where
  name := "app"
  types := [("Ping", .alias (.named "Pong")), ("Pong", .alias (.named "Ping")),
    ("People", .alias (.array (.named "Person"))),
    ("Person", .record ⟨[("name", .builtin .string)], none⟩)]
  errors := []
  documents := []

theorem isEndless_pong : circleProgram.IsEndless (.named "Pong") := by
  intro r k ends
  have pong : circleProgram.alias? "Pong" = some (.named "Ping") := by decide +kernel
  have ping : circleProgram.alias? "Ping" = some (.named "Pong") := by decide +kernel
  -- Two steps lead back to the start, which has one distance from the end only.
  obtain ⟨l, from_ping⟩ := ends.of_alias? pong
  obtain ⟨m, from_pong⟩ := from_ping.of_alias? ping
  have first := (from_ping.unique (.behind ping from_pong)).1
  have second := (ends.unique (.behind pong from_ping)).1
  have back := (ends.unique from_pong).1
  omega

theorem accepted_behind_alias_circle :
    circleProgram.alias? "Ping" = some (.named "Pong") ∧
      circleProgram.IsEndless (.named "Pong") ∧
      (∀ l, Listener.accepts l circleProgram (.named "Ping") = true ↔ l = .http) ∧
      circleProgram.alias? "People" = some (.array (.named "Person")) ∧
      circleProgram.LeadsTo (.array (.named "Person")) 0 (.array (.named "Person")) ∧
      Listener.cosmos.accepts circleProgram (.named "People") = true := by
  have ping : circleProgram.alias? "Ping" = some (.named "Pong") := by decide +kernel
  have people : circleProgram.alias? "People" = some (.array (.named "Person")) := by
    decide +kernel
  have stays : circleProgram.LeadsTo (.array (.named "Person")) 0 (.array (.named "Person")) :=
    .of_not_named (by simp)
  refine ⟨ping, isEndless_pong, fun l => ?_, people, stays, ?_⟩
  · exact (accepted_behind_alias ping l).2.2 isEndless_pong
  · apply ((accepted_behind_alias people .cosmos).2.1 _ 0 stays).2
    decide +kernel

end FunctionApp
