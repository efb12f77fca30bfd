import FunctionApp.Proofs.Results
import FunctionApp.Yaml.Decode

/-!
# What a record is read from

The entries of a mapping under a name are the ones whose key, an alias followed, is a scalar of that
text (`Document.under`). A record that is read has at most one entry under each of its names, and
that is where its field is from (`record_eq_ok`).
-/

namespace FunctionApp.Yaml

namespace Document

variable (document : Document)

/-- The node that an alias stands for, if there is one; any other node itself. -/
def followed? : Node → Option Node
  | .alias slot _ => document.anchored? slot
  | node => some node

/-- The text of a scalar, an alias followed. -/
def textOf? (node : Node) : Option String :=
  (document.followed? node).bind fun node => node.scalar?.map fun (_, _, text) => text

/-- The entries of a mapping whose key is a name. -/
def under (name : String) (node : Node) : List (Node × Node) :=
  match document.followed? node with
  | some (.mapping _ entries) => entries.filter fun (key, _) => document.textOf? key == some name
  | _ => []

end Document

namespace Decode

variable {α β : Type} {scope : Scope} {n m : Nat}

theorem bind_returns {x : Decode α} {f : α → Decode β} {r : β × Nat} :
    (x >>= f) scope n = .ok r ↔ ∃ a m, x scope n = .ok (a, m) ∧ f a scope m = .ok r := by
  show (x scope n >>= fun r => f r.1 scope r.2) = .ok r ↔ _
  rw [bind_eq_ok, Prod.exists]

theorem pure_returns {a b : α} : (pure a : Decode α) scope n = .ok (b, m) ↔ a = b ∧ n = m := by
  show Except.ok (a, n) = Except.ok (b, m) ↔ _
  rw [Except.ok.injEq, Prod.mk.injEq]

theorem fail_ne_ok {fault : Fault} {r : α × Nat} : (fail fault : Decode α) scope n ≠ .ok r :=
  nofun

/-! ## Scalars -/

theorem followed_of_follow {node found : Node} (h : follow node scope n = .ok (found, m)) :
    scope.document.followed? node = some found := by
  match node, h with
  | .alias slot line, h =>
    unfold follow at h
    obtain ⟨count, k, -, h⟩ := bind_returns.1 h
    obtain ⟨⟨⟩, k, -, h⟩ := bind_returns.1 h
    obtain ⟨_, k, hd, h⟩ := bind_returns.1 h
    cases hd
    dsimp only at h
    split at h
    · obtain ⟨⟨⟩, k, hf, -⟩ := bind_returns.1 h
      exact absurd hf fail_ne_ok
    · rw [Document.followed?]
      cases hs : scope.document.anchored? slot with
      | none =>
        rw [hs] at h
        exact absurd h fail_ne_ok
      | some node =>
        rw [hs] at h
        cases h
        rfl
  | .scalar _ _ _ _, h | .absent _, h | .sequence _ _, h | .mapping _ _, h =>
    cases h
    rfl

theorem textOf_of_text {node : Node} {text : String} (h : Decode.text node scope n = .ok (text, m)) :
    scope.document.textOf? node = some text := by
  obtain ⟨found, k, hf, h⟩ := bind_returns.1 h
  rw [Document.textOf?, followed_of_follow hf, Option.bind_some]
  rcases hs : found.scalar? with _ | ⟨p, style, read⟩
  · rw [hs] at h
    exact absurd h fail_ne_ok
  · rw [hs] at h
    cases h
    rfl

/-! ## Records -/

theorem enter_returns {body : Decode α} {r : α × Nat} (h : enter body scope n = .ok r) :
    ∃ depth, body { scope with depth := depth } n = .ok r := by
  obtain ⟨_, k, hr, h⟩ := bind_returns.1 h
  cases hr
  cases hd : scope.depth with
  | zero =>
    rw [hd] at h
    exact absurd h fail_ne_ok
  | succ depth =>
    rw [hd] at h
    exact ⟨depth, h⟩

theorem forall₂_of_mapM {f : α → Decode β} {as : List α} {bs : List β}
    (h : as.mapM f scope n = .ok (bs, m)) :
    List.Forall₂ (fun a b => ∃ k l, f a scope k = .ok (b, l)) as bs := by
  induction as generalizing bs n with
  | nil =>
    cases h
    exact .nil
  | cons a as ih =>
    rw [List.mapM_cons] at h
    obtain ⟨b, k, hb, h⟩ := bind_returns.1 h
    obtain ⟨more, l, hm, h⟩ := bind_returns.1 h
    cases h
    exact .cons ⟨n, k, hb⟩ (ih hm)

theorem withDefault_eq_ok {fields : Fields} {name : String} {default a : α}
    {body : Node → Decode α} (h : withDefault fields name default body scope n = .ok (a, m)) :
    fields.lookup name = none ∧ a = default ∨
      ∃ node, fields.lookup name = some node ∧ body node scope n = .ok (a, m) := by
  cases hn : fields.lookup name with
  | none =>
    rw [withDefault, hn] at h
    exact .inl ⟨rfl, (pure_returns.1 h).1.symm⟩
  | some node =>
    rw [withDefault, hn] at h
    exact .inr ⟨node, rfl, h⟩

/-- A field is the value of an entry under its name. -/
def FieldOf (document : Document) (entry : Node × Node) (field : String × Node) : Prop :=
  document.textOf? entry.1 = some field.1 ∧ field.2 = entry.2

theorem forall₂_fieldOf {pairs : List (Node × Node)} {fields : Fields}
    (h : pairs.mapM (m := Decode) (fun (key, value) => do return (← text key, value)) scope n =
      .ok (fields, m)) : List.Forall₂ (FieldOf scope.document) pairs fields := by
  refine (forall₂_of_mapM h).imp ?_
  rintro ⟨key, value⟩ field ⟨k, l, hf⟩
  obtain ⟨name, k', ht, hf⟩ := bind_returns.1 hf
  cases hf
  exact ⟨textOf_of_text ht, rfl⟩

/-- Of the fields under known names, the first one of a name is the value of the first entry under
it, and there are as many of them as entries. -/
theorem lookup_known {document : Document} {pairs : List (Node × Node)} {fields : Fields}
    (h : List.Forall₂ (FieldOf document) pairs fields) {known : List String} {name : String}
    (hk : name ∈ known) :
    let entries := pairs.filter fun (key, _) => document.textOf? key == some name
    let read := fields.filter fun (name, _) => known.contains name
    read.lookup name = entries.head?.map Prod.snd ∧
      (read.map (·.1)).count name = entries.length := by
  induction h with
  | nil => exact ⟨rfl, rfl⟩
  | @cons entry field pairs fields hf _ ih =>
    obtain ⟨key, value⟩ := entry
    obtain ⟨read, _⟩ := field
    obtain ⟨ht, rfl⟩ := hf
    dsimp only at ht ih ⊢
    by_cases hn : read = name
    · subst hn
      have listed : known.contains read = true := List.contains_iff_mem.2 hk
      have here : (document.textOf? key == some read) = true := by simp [ht]
      simp only [List.filter_cons, here, listed, if_true, List.lookup_cons_self, List.head?_cons,
        List.map_cons, List.count_cons_self, List.length_cons, Option.map_some, ih, and_self]
    · have elsewhere : (document.textOf? key == some name) = false := by simp [ht, hn]
      have other : (name == read) = false := by simp [Ne.symm hn]
      simp only [List.filter_cons, elsewhere, Bool.false_eq_true, if_false]
      split
      · simp only [List.lookup_cons, other, List.map_cons, List.count_cons_of_ne hn, ih, and_self]
      · exact ih

theorem under_eq_nil {document : Document} {node found : Node}
    (h : document.followed? node = some found) (hb : ∀ p entries, found ≠ .mapping p entries)
    (name : String) : document.under name node = [] := by
  rw [Document.under, h]
  split
  · next he => exact absurd (Option.some.inj he) (hb _ _)
  · rfl

/-- **What a record is read from.** Under each name of a record there is at most one entry, and the
field of that name is its value. -/
theorem record_eq_ok {known : List String} {body : Fields → Decode α} {node : Node} {a : α}
    (h : record known body node scope n = .ok (a, m)) :
    ∃ fields depth k, body fields ⟨scope.document, depth⟩ k = .ok (a, m) ∧
      ∀ name ∈ known, (scope.document.under name node).length ≤ 1 ∧
        fields.lookup name = (scope.document.under name node).head?.map Prod.snd := by
  obtain ⟨found, k, hf, h⟩ := bind_returns.1 h
  have leads := followed_of_follow hf
  have blank (hb : ∀ p entries, found ≠ .mapping p entries)
      (h : (if isBlank found then body [] else fail (.expected "a struct")) scope k = .ok (a, m)) :
      ∃ fields depth k, body fields ⟨scope.document, depth⟩ k = .ok (a, m) ∧
        ∀ name ∈ known, (scope.document.under name node).length ≤ 1 ∧
          fields.lookup name = (scope.document.under name node).head?.map Prod.snd := by
    split at h
    · refine ⟨[], scope.depth, k, h, fun name _ => ?_⟩
      rw [under_eq_nil leads hb]
      exact ⟨Nat.zero_le _, rfl⟩
    · exact absurd h fail_ne_ok
  match found, leads, blank, h with
  | .mapping p pairs, leads, _, h =>
    obtain ⟨depth, h⟩ := enter_returns h
    obtain ⟨named, k', hn, h⟩ := bind_returns.1 h
    dsimp only at h
    cases unique : known.find? fun name =>
        1 < ((named.filter fun (name, _) => known.contains name).map (·.1)).count name with
    | some name =>
      rw [unique] at h
      exact absurd h fail_ne_ok
    | none =>
      rw [unique] at h
      refine ⟨_, depth, k', h, fun name hk => ?_⟩
      obtain ⟨first, many⟩ := lookup_known (forall₂_fieldOf hn) hk
      have once := List.find?_eq_none.1 unique name hk
      rw [many, decide_eq_true_eq, Nat.not_lt] at once
      rw [Document.under, leads]
      exact ⟨once, first⟩
  | .scalar _ _ _ _, _, blank, h | .absent _, _, blank, h | .sequence _ _, _, blank, h
  | .alias _ _, _, blank, h => exact blank (by simp) h

/-- Where a field differs from its default, there is one entry under its name, and the field is read
from its value. -/
theorem under_of_ne_default {document : Document} {fields : Fields} {name : String} {node : Node}
    {default a : α} {body : Node → Decode α}
    (once : (document.under name node).length ≤ 1)
    (first : fields.lookup name = (document.under name node).head?.map Prod.snd)
    (h : withDefault fields name default body scope n = .ok (a, m)) (ha : a ≠ default) :
    ∃ entry, document.under name node = [entry] ∧ body entry.2 scope n = .ok (a, m) := by
  obtain ⟨-, rfl⟩ | ⟨value, hl, h⟩ := withDefault_eq_ok h
  · exact absurd rfl ha
  · rw [hl] at first
    match hu : document.under name node, once, first with
    | [entry], _, first => exact ⟨entry, rfl, by rwa [Option.some.inj first] at h⟩
    | [], _, first => cases first
    | _ :: _ :: _, once, _ => simp at once

/-- The key of an entry under a name that is not empty is written on a line. -/
theorem line_of_mem_under {document : Document} {name : String} {node : Node}
    {entry : Node × Node} (h : entry ∈ document.under name node) (hn : name ≠ "") :
    ∃ line, entry.1.line? = some line := by
  have reads : document.textOf? entry.1 = some name := by
    rw [Document.under] at h
    split at h
    · exact beq_iff_eq.1 (List.mem_filter.1 h).2
    · cases h
  obtain ⟨key, value⟩ := entry
  match key, reads with
  | .alias _ line, _ | .scalar _ _ _ line, _ => exact ⟨line, rfl⟩
  | .absent _, reads => exact absurd (Option.some.inj reads).symm hn

end Decode

end FunctionApp.Yaml
