import FunctionApp.Package.Host
import FunctionApp.Proofs.Json.Overlay
import FunctionApp.Proofs.Json.RoundTrip

/-!
# The host configuration over itself

The host configuration of an app, written over what was written before for the same app, comes out the
same (`hostOver_again`): it is read back as it was written, the options change nothing of it, and the
program is started the same way.
-/

namespace FunctionApp.BuildOptions

open Json

variable {P : Double → Prop} {o : BuildOptions} {depth : Nat} {members : List (String × Json)}
  {key : String} {value json : Json}

/-- A text with the doubles of whose object the reader and the writer agree. -/
def DoublesReadBack (text : Option String) : Prop :=
  ∀ t host, text = some t → Json.read t = .ok host → ∀ d, host.Has d → ReadsBack d

/-! ## What can be read -/

theorem readable_previousHost {text : Option String} (h : DoublesReadBack text) :
    Readable ReadsBack 128 (previousHost text) := by
  unfold previousHost
  split
  · next members e =>
    obtain ⟨t, rfl, ht⟩ := Option.map_eq_some_iff.1 e
    exact (readable_of_read ht).of_has (h t _ rfl ht)
  · exact .empty _

theorem readable_ofTexts (texts : List String) (depth : Nat) :
    Readable P (depth + 2) (.ofTexts texts) := by
  refine .array fun item h => ?_
  obtain ⟨t, _, rfl⟩ := List.mem_map.1 h
  exact .text _ _

theorem readable_hostConfig (o : BuildOptions) (depth : Nat) :
    Readable P (depth + 4) o.hostConfig := by
  have route : Readable P (depth + 2) (.object [("routePrefix", .text "")]) :=
    .cons (by simp [keys]) (.text _ _) (.empty _)
  have extensions : Readable P (depth + 3) (.object [("http", .object [("routePrefix", .text "")])]) :=
    .cons (by simp [keys]) route (.empty _)
  have handler : Readable P (depth + 3)
      (.object [("description", .object []), ("enableForwardingHttpRequest", .bool false)]) :=
    .cons (by simp [keys]) (.empty _) (.cons (by simp [keys]) (.bool _ _) (.empty _))
  have bundle : Readable P (depth + 3)
      (.object [("id", .text o.host.bundleId), ("version", .text o.host.bundleVersion)]) :=
    .cons (by simp [keys]) (.text _ _) (.cons (by simp [keys]) (.text _ _) (.empty _))
  exact .cons (by simp [keys]) (.text _ _) (.cons (by simp [keys]) extensions
    (.cons (by simp [keys]) handler (.cons (by simp [keys]) bundle (.empty _))))

/-- How a program is started is said by an object. -/
theorem readable_handlerDescription (o : BuildOptions) (binary : Option String) (native : Bool)
    (depth : Nat) : ∃ members, o.handlerDescription binary native = .object members ∧
      Readable P (depth + 3) (.object members) := by
  unfold handlerDescription
  split
  · exact ⟨_, rfl, .cons (by simp [keys]) (.text _ _)
      (.cons (by simp [keys]) (.array (by simp)) (.empty _))⟩
  · exact ⟨_, rfl, .cons (by simp [keys]) (.text _ _) (.cons (by simp [keys]) (readable_ofTexts _ _)
      (.cons (by simp [keys]) (.text _ _) (.empty _)))⟩
  · exact ⟨_, rfl, .cons (by simp [keys]) (.text _ _)
      (.cons (by simp [keys]) (readable_ofTexts _ _) (.empty _))⟩

theorem readable_insertMember (hv : Readable P (depth + 1) value)
    (h : Readable P (depth + 2) (.object members)) :
    Readable P (depth + 2) (.object (insertMember members key value)) := by
  cases h with
  | object distinct h =>
    refine .object (nodup_insertMember distinct) fun m hm => ?_
    rcases mem_insertMember hm with rfl | hm
    · exact hv
    · exact h m hm

/-! ## The configuration -/

/-- What the options say of the program that serves an app. -/
def handlerConfig : Json :=
  .object [("description", .object []), ("enableForwardingHttpRequest", .bool false)]

/-- The options name the program once. -/
theorem hostConfig_eq (o : BuildOptions) : ∃ tops, o.hostConfig = .object tops ∧
    (keys tops).Nodup ∧ ("customHandler", handlerConfig) ∈ tops :=
  ⟨_, rfl, by simp [keys], by simp [handlerConfig]⟩

/-- A previous configuration with the options laid over it, and in it what there is of the program. -/
theorem overlay_hostConfig (o : BuildOptions) (previous : Option String) :
    ∃ hosts handlers, overlay (previousHost previous) o.hostConfig = .object hosts ∧
      overlay (.object hosts) o.hostConfig = .object hosts ∧
      hosts.lookup "customHandler" = some (.object handlers) ∧
      overlay (.object handlers) handlerConfig = .object handlers := by
  obtain ⟨tops, ho, distinct, named⟩ := hostConfig_eq o
  obtain ⟨hosts, hw⟩ := exists_overlay_object (previousHost previous) tops
  have again := overlay_overlay (readable_hostConfig (P := fun _ => True) o 0).isKeyed
    (previousHost previous)
  rw [ho, hw] at again
  obtain ⟨handler, found, same⟩ := (overlay_object_iff distinct).1 again _ named
  obtain ⟨handlers, e⟩ := exists_overlay_object handler
    [("description", .object []), ("enableForwardingHttpRequest", .bool false)]
  obtain rfl : handler = .object handlers := same.symm.trans e
  exact ⟨hosts, handlers, by rw [ho, hw], by rw [ho, again], found, same⟩

theorem hostOver_eq {previous : Option String} {hosts handlers : List (String × Json)}
    (h : overlay (previousHost previous) o.hostConfig = .object hosts)
    (hl : hosts.lookup "customHandler" = some (.object handlers)) (binary : Option String)
    (native : Bool) :
    o.hostOver previous binary native = .object (insertMember hosts "customHandler"
      (.object (insertMember handlers "description" (o.handlerDescription binary native)))) := by
  rw [hostOver, h]
  dsimp only [get?]
  rw [hl]
  rfl

/-- A host configuration is read back as it was written. -/
theorem read_hostOver {previous : Option String} (h : DoublesReadBack previous)
    (binary : Option String) (native : Bool) :
    Json.read (o.hostOver previous binary native).pretty = .ok (o.hostOver previous binary native) := by
  obtain ⟨hosts, handlers, laid, -, found, -⟩ := overlay_hostConfig o previous
  obtain ⟨description, hd, readable⟩ :=
    readable_handlerDescription (P := ReadsBack) o binary native 123
  have hostsReadable : Readable ReadsBack 128 (.object hosts) := by
    rw [← laid]
    exact (readable_previousHost h).overlay (readable_hostConfig o 124)
  have handlersReadable : Readable ReadsBack 127 (.object handlers) := by
    cases hostsReadable with
    | object _ members => exact members _ (mem_of_lookup found)
  rw [hostOver_eq laid found, hd]
  exact read_pretty (readable_insertMember (readable_insertMember readable handlersReadable)
    hostsReadable)

/-- The options change nothing of a host configuration. -/
theorem overlay_hostOver (o : BuildOptions) (previous binary : Option String) (native : Bool) :
    overlay (o.hostOver previous binary native) o.hostConfig = o.hostOver previous binary native := by
  obtain ⟨hosts, handlers, laid, same, found, sameHandler⟩ := overlay_hostConfig o previous
  obtain ⟨tops, ho, distinct, named⟩ := hostConfig_eq o
  obtain ⟨description, hd, -⟩ :=
    readable_handlerDescription (P := fun _ => True) o binary native 0
  rw [hostOver_eq laid found, hd, ho]
  rw [ho] at same
  refine overlay_insertMember distinct same fun t ht => ?_
  obtain rfl : t = handlerConfig := by
    have other := lookup_of_mem distinct ht
    rw [lookup_of_mem distinct named] at other
    exact (Option.some.inj other).symm
  refine overlay_insertMember (by simp [keys]) sameHandler fun t ht => ?_
  obtain rfl : t = .object [] := by simpa using ht
  exact overlay_nil description

/-- **The host configuration over itself** is the same. -/
theorem hostOver_again {previous : Option String} (h : DoublesReadBack previous)
    (binary : Option String) (native : Bool) :
    o.hostOver (some (o.hostOver previous binary native).pretty) binary native =
      o.hostOver previous binary native := by
  obtain ⟨hosts, handlers, laid, -, found, -⟩ := overlay_hostConfig o previous
  have whole := hostOver_eq laid found binary native
  have laid' : overlay (previousHost (some (o.hostOver previous binary native).pretty))
      o.hostConfig = o.hostOver previous binary native := by
    have kept : previousHost (some (o.hostOver previous binary native).pretty) =
        o.hostOver previous binary native := by
      rw [previousHost, Option.map_some, read_hostOver h, whole]
    rw [kept, overlay_hostOver]
  rw [whole] at laid' ⊢
  rw [hostOver_eq laid' (by rw [lookup_insertMember, if_pos rfl]), insertMember_insertMember,
    insertMember_insertMember]

end FunctionApp.BuildOptions
