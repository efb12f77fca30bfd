import FunctionApp.Json.Overlay
import FunctionApp.Proofs.Json.Readable

/-!
# Overlaying again

Laying a value over another one once more changes nothing (`overlay_overlay`), if its objects have
one member under each key (`IsKeyed`). An object is unchanged by another one if its members are by
the members of the other (`overlay_object_iff`), and stays so when a member is set
(`overlay_insertMember`).
-/

namespace FunctionApp.Json

variable {P : Double → Prop} {depth : Nat} {base top : Json} {members tops : List (String × Json)}
  {key : String}

/-! ## Members -/

/-- A member of the top is set over the one that was there. -/
theorem overlayMembers_cons (members : List (String × Json)) (key : String) (top : Json)
    (rest : List (String × Json)) :
    overlayMembers members ((key, top) :: rest) =
      overlayMembers (insertMember members key ((members.lookup key).elim top (overlay · top)))
        rest := by
  rw [overlayMembers]
  cases h : members.lookup key with
  | some value => rfl
  | none =>
    have absent : key ∉ keys members := lookup_eq_none.1 h
    dsimp only [Option.elim]
    rw [insertMember_of_not_mem absent]

theorem lookup_overlayMembers_of_not_mem (h : key ∉ keys tops) (members : List (String × Json)) :
    (overlayMembers members tops).lookup key = members.lookup key := by
  induction tops generalizing members with
  | nil => rw [overlayMembers]
  | cons m tops ih =>
    obtain ⟨k, t⟩ := m
    obtain ⟨hk, hm⟩ : key ≠ k ∧ key ∉ keys tops := by simpa [keys] using h
    rw [overlayMembers_cons, ih hm, lookup_insertMember, if_neg hk]

theorem lookup_overlayMembers (hn : (keys tops).Nodup) (h : (key, top) ∈ tops)
    (members : List (String × Json)) :
    (overlayMembers members tops).lookup key =
      some ((members.lookup key).elim top (overlay · top)) := by
  induction tops generalizing members with
  | nil => cases h
  | cons m tops ih =>
    obtain ⟨k, t⟩ := m
    obtain ⟨fresh, nodup⟩ := List.nodup_cons.1 hn
    rw [overlayMembers_cons]
    rcases List.mem_cons.1 h with e | hm
    · cases e
      rw [lookup_overlayMembers_of_not_mem fresh, lookup_insertMember, if_pos rfl]
    · have hk : key ≠ k := by
        rintro rfl
        exact fresh (mem_keys_of_mem hm)
      rw [ih nodup hm, lookup_insertMember, if_neg hk]

/-- **The members of the base come first**, in their order, and the new ones of the top follow in
theirs. -/
theorem keys_overlayMembers (hn : (keys tops).Nodup) (members : List (String × Json)) :
    keys (overlayMembers members tops) =
      keys members ++ (keys tops).filter fun key => key ∉ keys members := by
  induction tops generalizing members with
  | nil =>
    rw [overlayMembers]
    exact (List.append_nil _).symm
  | cons m tops ih =>
    obtain ⟨k, t⟩ := m
    obtain ⟨fresh, nodup⟩ : k ∉ keys tops ∧ (keys tops).Nodup := List.nodup_cons.1 hn
    have whole : keys ((k, t) :: tops) = k :: keys tops := rfl
    rw [overlayMembers_cons, ih nodup, keys_insertMember, whole]
    split
    · next there => rw [List.filter_cons_of_neg (by simpa using there)]
    · next absent =>
      rw [List.filter_cons_of_pos (by simpa using absent), List.append_assoc, List.singleton_append]
      -- The new key is none of those that follow.
      congr 2
      refine List.filter_congr fun key hk => ?_
      have other : key ≠ k := by
        rintro rfl
        exact fresh hk
      simp [other]

theorem nodup_overlayMembers (h : (keys members).Nodup) (tops : List (String × Json)) :
    (keys (overlayMembers members tops)).Nodup := by
  induction tops generalizing members with
  | nil => rwa [overlayMembers]
  | cons m tops ih =>
    rw [overlayMembers_cons]
    exact ih (nodup_insertMember h)

/-- Whatever holds of the members of both and of what they are overlaid to. -/
theorem mem_overlayMembers {R : Json → Prop} (hm : ∀ m ∈ members, R m.2)
    (ht : ∀ t ∈ tops, R t.2 ∧ ∀ v, R v → R (overlay v t.2)) :
    ∀ m ∈ overlayMembers members tops, R m.2 := by
  induction tops generalizing members with
  | nil => rwa [overlayMembers]
  | cons t tops ih =>
    obtain ⟨k, t⟩ := t
    obtain ⟨alone, overlaid⟩ := ht _ (.head _)
    rw [overlayMembers_cons]
    refine ih (fun m h => ?_) fun t h => ht t (.tail _ h)
    rcases mem_insertMember h with rfl | h
    · dsimp only
      cases hl : members.lookup k with
      | none => exact alone
      | some v => exact overlaid v (hm _ (mem_of_lookup hl))
    · exact hm m h

/-! ## Values -/

/-- A value with one member under each key, in itself and in whatever keys lead to from it. -/
inductive IsKeyed : Json → Prop where
  | leaf {v : Json} (other : ∀ members, v ≠ .object members) : IsKeyed v
  | object {members : List (String × Json)} (distinct : (keys members).Nodup)
      (h : ∀ m ∈ members, IsKeyed m.2) : IsKeyed (.object members)

theorem Readable.isKeyed (h : Readable P depth top) : top.IsKeyed := by
  induction h with
  | object distinct _ ih => exact .object distinct ih
  | _ => exact .leaf (by simp)

theorem overlay_object (members tops : List (String × Json)) :
    overlay (.object members) (.object tops) = .object (overlayMembers members tops) := by
  rw [overlay]

/-- Only objects are laid over each other member by member. -/
theorem overlay_cases (base top : Json) : overlay base top = top ∨
    ∃ members tops, base = .object members ∧ top = .object tops := by
  cases top with
  | object tops =>
    cases base with
    | object members => exact .inr ⟨members, tops, rfl, rfl⟩
    | _ =>
      left
      rw [overlay]
      simp
  | _ =>
    left
    rw [overlay]
    simp

theorem overlay_of_not_object (base : Json) (h : ∀ tops, top ≠ .object tops) :
    overlay base top = top :=
  (overlay_cases base top).resolve_right fun ⟨_, tops, _, e⟩ => h tops e

theorem overlay_over_not_object (top : Json) (h : ∀ members, base ≠ .object members) :
    overlay base top = top :=
  (overlay_cases base top).resolve_right fun ⟨members, _, e, _⟩ => h members e

/-- What an object is laid over becomes an object. -/
theorem exists_overlay_object (base : Json) (tops : List (String × Json)) :
    ∃ members, overlay base (.object tops) = .object members := by
  rcases overlay_cases base (.object tops) with e | ⟨members, _, rfl, _⟩
  · exact ⟨tops, e⟩
  · exact ⟨_, overlay_object members tops⟩

/-- An object without members changes no object. -/
theorem overlay_nil (members : List (String × Json)) :
    overlay (.object members) (.object []) = .object members := by
  rw [overlay_object, overlayMembers]

/-- **An object is unchanged by another one** if it has its members, unchanged by them. -/
theorem overlay_object_iff (hn : (keys tops).Nodup) :
    overlay (.object members) (.object tops) = .object members ↔
      ∀ t ∈ tops, ∃ v, members.lookup t.1 = some v ∧ overlay v t.2 = v := by
  rw [overlay_object, Json.object.injEq]
  constructor
  · intro h t ht
    have found := lookup_overlayMembers hn ht members
    rw [h] at found
    refine ⟨_, found, ?_⟩
    rw [found] at found
    exact (Option.some.inj found).symm
  · intro h
    induction tops with
    | nil => rw [overlayMembers]
    | cons t tops ih =>
      obtain ⟨k, t⟩ := t
      obtain ⟨v, hv, same⟩ := h _ (.head _)
      rw [overlayMembers_cons, hv]
      dsimp only [Option.elim]
      rw [same, insertMember_of_lookup hv]
      exact ih (List.nodup_cons.1 hn).2 fun t ht => h t (.tail _ ht)

theorem overlay_self (h : top.IsKeyed) : overlay top top = top := by
  induction h with
  | leaf other => exact overlay_of_not_object _ other
  | object distinct _ ih =>
    exact (overlay_object_iff distinct).2 fun t ht => ⟨t.2, lookup_of_mem distinct ht, ih t ht⟩

/-- **Laying a value over another one again changes nothing.** -/
theorem overlay_overlay (h : top.IsKeyed) (base : Json) :
    overlay (overlay base top) top = overlay base top := by
  induction h generalizing base with
  | leaf other => rw [overlay_of_not_object _ other, overlay_of_not_object _ other]
  | @object tops distinct h ih =>
    rcases overlay_cases base (.object tops) with e | ⟨members, _, rfl, _⟩
    · rw [e, overlay_self (.object distinct h)]
    · rw [overlay_object, overlay_object_iff distinct]
      intro t ht
      refine ⟨_, lookup_overlayMembers distinct ht members, ?_⟩
      cases members.lookup t.1 with
      | none => exact overlay_self (h t ht)
      | some v => exact ih t ht v

/-- An object that another one leaves unchanged still is when a member is set to a value that the
other one leaves unchanged. -/
theorem overlay_insertMember {value : Json} (hn : (keys tops).Nodup)
    (h : overlay (.object members) (.object tops) = .object members)
    (hv : ∀ t, (key, t) ∈ tops → overlay value t = value) :
    overlay (.object (insertMember members key value)) (.object tops) =
      .object (insertMember members key value) := by
  rw [overlay_object_iff hn] at h ⊢
  intro t ht
  rw [lookup_insertMember]
  split
  · next hk => exact ⟨value, rfl, hv t.2 (hk ▸ ht)⟩
  · exact h t ht

/-- An overlaid value can be read if both values can. -/
theorem Readable.overlay (hb : Readable P depth base) (ht : Readable P depth top) :
    Readable P depth (overlay base top) := by
  induction ht generalizing base with
  | @object depth tops distinct h ih =>
    rcases overlay_cases base (.object tops) with e | ⟨members, _, rfl, _⟩
    · rw [e]
      exact .object distinct h
    · cases hb with
      | object distinct' h' =>
        rw [overlay_object]
        exact .object (nodup_overlayMembers distinct' _)
          (mem_overlayMembers h' fun t ht => ⟨h t ht, fun v hv => ih t ht hv⟩)
  | _ =>
    rw [overlay_of_not_object _ (by simp)]
    constructor
    all_goals assumption

end FunctionApp.Json
