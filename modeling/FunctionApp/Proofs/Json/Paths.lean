import FunctionApp.Proofs.Json.Overlay

/-!
# Values along paths

A path of keys leads through objects to a value. What stands at a path of an overlaid value is what
stands there in the two values, one laid over the other (`at?_overlay`), which gives the laws of
overlaying at every depth (`overlaid_along_paths`). An assignment changes what stands at its path
and nothing beside it (`at?_of_assign?_of_apart`); it fails where something other than an object is
on its way.
-/

namespace FunctionApp.Json

variable {json json' base top value : Json} {members tops : List (String × Json)} {key : String}
  {path other : List String}

/-- The value that a path of keys leads to. -/
def at? : Json → List String → Option Json
  | json, [] => some json
  | json, key :: path => (json.get? key).bind (at? · path)

/-- The members that an index finds its own among: a null has none, and a value that is neither null
nor an object cannot be indexed. -/
def indexed? : Json → Option (List (String × Json))
  | .object members => some members
  | .null => some []
  | _ => none

/-- The value with another one assigned at a path. A member that is missing on the way is made as a
null, which becomes an object where it is indexed. -/
def assign? : Json → List String → Json → Option Json
  | _, [], value => some value
  | json, key :: path, value => do
    let members ← json.indexed?
    let v ← assign? ((members.lookup key).getD .null) path value
    return .object (insertMember members key v)

@[simp] theorem at?_nil (json : Json) : json.at? [] = some json := by rw [at?]

theorem at?_cons (json : Json) (key : String) (path : List String) :
    json.at? (key :: path) = (json.get? key).bind (at? · path) := by rw [at?]

@[simp] theorem at?_object_cons (members : List (String × Json)) (key : String)
    (path : List String) :
    (object members).at? (key :: path) = (members.lookup key).bind (at? · path) :=
  at?_cons _ _ _

theorem at?_append (json : Json) (path more : List String) :
    json.at? (path ++ more) = (json.at? path).bind (at? · more) := by
  induction path generalizing json with
  | nil => simp
  | cons key path ih =>
    rw [List.cons_append, at?_cons, at?_cons]
    cases json.get? key with
    | none => rfl
    | some v => exact ih v

theorem at?_concat (json : Json) (path : List String) (key : String) :
    json.at? (path ++ [key]) = (json.at? path).bind (·.get? key) := by
  rw [at?_append]
  refine Option.bind_congr fun v _ => ?_
  rw [at?_cons]
  simp

/-- What leads to a value leads through the values before it. -/
theorem isSome_at?_of_prefix (h : (json.at? other).isSome = true) (hp : path <+: other) :
    (json.at? path).isSome = true := by
  obtain ⟨more, rfl⟩ := hp
  rw [at?_append] at h
  exact Option.isSome_of_isSome_bind h

/-- Nothing stands behind a value other than an object. -/
theorem at?_of_not_object (h : ∀ members, json ≠ object members) (hp : path ≠ []) :
    json.at? path = none := by
  cases path with
  | nil => exact absurd rfl hp
  | cons key path =>
    rw [at?_cons]
    cases json with
    | object members => exact absurd rfl (h members)
    | _ => rfl

/-! ## Overlaying -/

theorem IsKeyed.distinct (h : (Json.object tops).IsKeyed) : (keys tops).Nodup := by
  cases h with
  | leaf other => exact absurd rfl (other tops)
  | object distinct => exact distinct

theorem IsKeyed.of_get? (h : json.IsKeyed) (hv : json.get? key = some value) : value.IsKeyed := by
  cases h with
  | leaf other =>
    cases json with
    | object members => exact absurd rfl (other members)
    | _ => cases hv
  | object _ keyed => exact keyed _ (mem_of_lookup hv)

/-- Whatever keys lead to has one member under each key. -/
theorem IsKeyed.of_at? (h : json.IsKeyed) (hv : json.at? path = some value) : value.IsKeyed := by
  induction path generalizing json with
  | nil =>
    rw [at?_nil] at hv
    cases hv
    exact h
  | cons key path ih =>
    obtain ⟨v, there, below⟩ := Option.bind_eq_some_iff.1 (at?_cons .. ▸ hv)
    exact ih (h.of_get? there) below

/-- **What stands at a path of an overlaid value** is the value of the top there, laid over the
value of the base there if it has one. -/
theorem at?_overlay {t : Json} (h : top.IsKeyed) (ht : top.at? path = some t) (base : Json) :
    (overlay base top).at? path = some ((base.at? path).elim t (overlay · t)) := by
  induction path generalizing base top with
  | nil =>
    rw [at?_nil] at ht ⊢
    cases ht
    rfl
  | cons key path ih =>
    obtain ⟨v, hv, below⟩ := Option.bind_eq_some_iff.1 (at?_cons .. ▸ ht)
    cases top with
    | object tops =>
      have hm : (key, v) ∈ tops := mem_of_lookup hv
      by_cases hb : ∃ members, base = .object members
      · obtain ⟨members, rfl⟩ := hb
        rw [overlay_object, at?_object_cons, lookup_overlayMembers h.distinct hm, at?_object_cons]
        cases members.lookup key with
        | none => exact below
        | some m => exact ih (h.of_get? hv) below m
      · have other : ∀ members, base ≠ .object members := fun members e => hb ⟨members, e⟩
        have none : base.at? (key :: path) = none := at?_of_not_object other (by simp)
        rw [overlay_over_not_object _ other, none]
        exact ht
    | _ => cases hv

/-- A value of the top that is no object is there. -/
theorem at?_overlay_of_not_object (h : top.IsKeyed) (ht : top.at? path = some value)
    (hv : ∀ tops, value ≠ object tops) (base : Json) :
    (overlay base top).at? path = some value := by
  rw [at?_overlay h ht]
  cases base.at? path with
  | none => rfl
  | some b => exact congrArg some (overlay_of_not_object b hv)

/-- Where the top has an object there is an object. -/
theorem exists_at?_overlay_object (h : top.IsKeyed)
    (ht : top.at? path = some (.object tops)) (base : Json) :
    ∃ members, (overlay base top).at? path = some (.object members) := by
  rw [at?_overlay h ht]
  cases base.at? path with
  | none => exact ⟨tops, rfl⟩
  | some b =>
    obtain ⟨members, e⟩ := exists_overlay_object b tops
    exact ⟨members, congrArg some e⟩

/-- Where both values have an object, the members that the top does not have are those of the base.
-/
theorem at?_overlay_of_not_mem (h : top.IsKeyed)
    (hb : base.at? path = some (.object members)) (ht : top.at? path = some (.object tops))
    (hk : key ∉ keys tops) : (overlay base top).at? (path ++ [key]) = members.lookup key := by
  rw [at?_concat, at?_overlay h ht, hb]
  show (overlay (.object members) (.object tops)).get? key = _
  rw [overlay_object]
  exact lookup_overlayMembers_of_not_mem hk members

/-- Where the top has an object and the base has none, the object of the top is there. -/
theorem at?_overlay_of_new (h : top.IsKeyed) (ht : top.at? path = some (.object tops))
    (hb : ∀ members, base.at? path ≠ some (.object members)) :
    (overlay base top).at? path = some (.object tops) := by
  rw [at?_overlay h ht]
  cases e : base.at? path with
  | none => rfl
  | some b => exact congrArg some (overlay_over_not_object _ fun members eb => hb members (eb ▸ e))

/-- Whatever the base has, or does not have, behind a key that the top does not have in an object of
both, stays. -/
theorem at?_overlay_of_leaving (h : top.IsKeyed) (hb : base.at? path = some (.object members))
    (ht : top.at? path = some (.object tops)) (hk : key ∉ keys tops) (more : List String) :
    (overlay base top).at? (path ++ key :: more) = base.at? (path ++ key :: more) := by
  rw [List.append_cons, at?_append, at?_overlay_of_not_mem h hb ht hk, at?_append, at?_concat, hb]
  rfl

/-- Where both values have an object, the keys of the base stay in their order before the new ones
of the top in theirs. -/
theorem keys_at?_overlay (h : top.IsKeyed) (hb : base.at? path = some (.object members))
    (ht : top.at? path = some (.object tops)) :
    ∃ merged, (overlay base top).at? path = some (.object merged) ∧
      keys merged = keys members ++ (keys tops).filter fun key => key ∉ keys members := by
  refine ⟨overlayMembers members tops, ?_, keys_overlayMembers ((h.of_at? ht).distinct) members⟩
  rw [at?_overlay h ht, hb]
  exact congrArg some (overlay_object members tops)

/-- **The laws of overlaying.** Laying a value over another one again changes nothing. At every path
where the top has a value that is no object the result has that value, and where it has an object
and the base has none the result has the object of the top. What stands in the base behind a key
that the top does not have, in an object of both, stays as it is. In an object of both the keys of
the base come first in their order, and then the new ones of the top in theirs. -/
theorem overlaid_along_paths (h : top.IsKeyed) (base : Json) :
    overlay (overlay base top) top = overlay base top ∧
    (∀ path value, top.at? path = some value → (∀ tops, value ≠ object tops) →
      (overlay base top).at? path = some value) ∧
    (∀ path tops, top.at? path = some (.object tops) →
      (∀ members, base.at? path ≠ some (.object members)) →
      (overlay base top).at? path = some (.object tops)) ∧
    (∀ path members tops key more, base.at? path = some (.object members) →
      top.at? path = some (.object tops) → key ∉ keys tops →
      (overlay base top).at? (path ++ key :: more) = base.at? (path ++ key :: more)) ∧
    (∀ path members tops, base.at? path = some (.object members) →
      top.at? path = some (.object tops) →
      ∃ merged, (overlay base top).at? path = some (.object merged) ∧
        keys merged = keys members ++ (keys tops).filter fun key => key ∉ keys members) :=
  ⟨overlay_overlay h base, fun _ _ ht hv => at?_overlay_of_not_object h ht hv base,
    fun _ _ ht hb => at?_overlay_of_new h ht hb,
    fun _ _ _ _ more hb ht hk => at?_overlay_of_leaving h hb ht hk more,
    fun _ _ _ hb ht => keys_at?_overlay h hb ht⟩

/-- Settings with a text where the others have an object. -/
def oldSettings : Json :=
  .object [("version", .text "1.0"), ("logging", .object [("level", .text "Warning")]),
    ("extensions", .object [("http", .object [("routePrefix", .text "api"), ("limit", .int 200)])]),
    ("bundle", .text "none")]

def newSettings : Json :=
  .object [("bundle", .object [("id", .text "core")]), ("retry", .null),
    ("extensions", .object [("queues", .object []),
      ("http", .object [("routePrefix", .text "")])]), ("version", .text "2.0")]

theorem overlaid_along_paths_settings :
    newSettings.IsKeyed ∧
      (overlay oldSettings newSettings).at? ["extensions", "http", "routePrefix"] =
        some (.text "") ∧
      (overlay oldSettings newSettings).at? ["bundle"] = some (.object [("id", .text "core")]) ∧
      (overlay oldSettings newSettings).at? ["extensions", "http", "limit"] = some (.int 200) ∧
      ∃ merged, (overlay oldSettings newSettings).at? [] = some (.object merged) ∧
        keys merged = ["version", "logging", "extensions", "bundle", "retry"] := by
  have text (t : String) : (Json.text t).IsKeyed := .leaf (by simp)
  have single {key : String} {v : Json} (hv : v.IsKeyed) : (Json.object [(key, v)]).IsKeyed :=
    .object (by simp [keys]) (by simpa using hv)
  have keyed : newSettings.IsKeyed := by
    refine .object (by decide +kernel) ?_
    simp only [List.forall_mem_cons, List.not_mem_nil, false_imp_iff, implies_true, and_true]
    refine ⟨single (text _), .leaf (by simp), .object (by decide +kernel) ?_, text _⟩
    simp only [List.forall_mem_cons, List.not_mem_nil, false_imp_iff, implies_true, and_true]
    exact ⟨.object List.nodup_nil (by simp), single (text _)⟩
  obtain ⟨-, plain, new, stays, order⟩ := overlaid_along_paths keyed oldSettings
  refine ⟨keyed, plain _ _ ?_ (by simp), new _ _ ?_ ?_, ?_, ?_⟩
  · decide +kernel
  · decide +kernel
  · intro members e
    have text : oldSettings.at? ["bundle"] = some (.text "none") := by decide +kernel
    rw [text] at e
    cases e
  · exact (stays ["extensions", "http"] _ _ "limit" [] rfl rfl (by decide +kernel)).trans rfl
  · obtain ⟨merged, there, listed⟩ := order [] _ _ rfl rfl
    exact ⟨merged, there, listed.trans (by decide +kernel)⟩

/-! ## Assignments -/

theorem assign?_cons_eq_some :
    json.assign? (key :: path) value = some json' ↔
      ∃ members v, json.indexed? = some members ∧
        assign? ((members.lookup key).getD .null) path value = some v ∧
          .object (insertMember members key v) = json' := by
  rw [assign?]
  simp [Option.bind_eq_some_iff]

theorem get?_eq_lookup_of_indexed? (h : json.indexed? = some members) (key : String) :
    json.get? key = members.lookup key := by
  cases json with
  | null =>
    cases h
    rfl
  | object =>
    cases h
    rfl
  | _ => cases h

/-- What is assigned is there. -/
theorem at?_of_assign? (h : json.assign? path value = some json') :
    json'.at? path = some value := by
  induction path generalizing json json' with
  | nil =>
    rw [assign?] at h
    cases h
    exact at?_nil value
  | cons key path ih =>
    obtain ⟨members, v, _, hv, rfl⟩ := assign?_cons_eq_some.1 h
    rw [at?_object_cons, lookup_insertMember, if_pos rfl]
    exact ih hv

/-- On the way to what is assigned there are objects. -/
theorem exists_at?_of_assign? (h : json.assign? path value = some json') (hp : other <+: path)
    (hne : other ≠ path) : ∃ members, json'.at? other = some (.object members) := by
  induction path generalizing json json' other with
  | nil => exact absurd (List.prefix_nil.1 hp) hne
  | cons key path ih =>
    obtain ⟨members, v, _, hv, rfl⟩ := assign?_cons_eq_some.1 h
    cases other with
    | nil => exact ⟨_, at?_nil _⟩
    | cons k other =>
      obtain ⟨rfl, below⟩ := List.cons_prefix_cons.1 hp
      rw [at?_object_cons, lookup_insertMember, if_pos rfl]
      exact ih hv below fun e => hne (congrArg _ e)

/-- **An assignment changes nothing beside its path.** -/
theorem at?_of_assign?_of_apart (h : json.assign? path value = some json') (hp : ¬path <+: other)
    (hp' : ¬other <+: path) : json'.at? other = json.at? other := by
  induction path generalizing json json' other with
  | nil => exact absurd List.nil_prefix hp
  | cons key path ih =>
    obtain ⟨members, v, hm, hv, rfl⟩ := assign?_cons_eq_some.1 h
    cases other with
    | nil => exact absurd List.nil_prefix hp'
    | cons k other =>
      rw [at?_object_cons, lookup_insertMember, at?_cons, get?_eq_lookup_of_indexed? hm]
      split
      · next e =>
        subst e
        rw [List.cons_prefix_cons] at hp hp'
        have same := ih hv (fun c => hp ⟨rfl, c⟩) fun c => hp' ⟨rfl, c⟩
        refine same.trans ?_
        cases members.lookup k with
        | none =>
          have further : other ≠ [] := fun e => hp' ⟨rfl, e ▸ List.nil_prefix⟩
          exact at?_of_not_object (by simp) further
        | some m => rfl
      · rfl

end FunctionApp.Json
