import FunctionApp.Json.Basic

/-!
# Members of objects

An object has one member under each of its keys. Setting a member keeps the keys apart
(`nodup_insertMember`), and changes nothing where it has the value already (`insertMember_of_lookup`).
-/

namespace FunctionApp.Json

variable {members : List (String × Json)} {key : String} {value : Json}

/-- The keys of members in their order. -/
def keys (members : List (String × Json)) : List String := members.map (·.1)

theorem mem_keys_of_mem (h : (key, value) ∈ members) : key ∈ keys members :=
  List.mem_map_of_mem h

theorem lookup_eq_none : members.lookup key = none ↔ key ∉ keys members := by
  rw [List.lookup_eq_none_iff]
  simp only [keys, List.mem_map, not_exists, not_and, bne_iff_ne]
  exact forall_congr' fun m => imp_congr_right fun _ => ne_comm

theorem mem_of_lookup (h : members.lookup key = some value) : (key, value) ∈ members := by
  obtain ⟨before, after, rfl, -⟩ := List.lookup_eq_some_iff.1 h
  simp

theorem lookup_of_mem (hn : (keys members).Nodup) (h : (key, value) ∈ members) :
    members.lookup key = some value := by
  induction members with
  | nil => cases h
  | cons m members ih =>
    obtain ⟨k, v⟩ := m
    obtain ⟨fresh, nodup⟩ := List.nodup_cons.1 hn
    rcases List.mem_cons.1 h with e | hm
    · cases e
      rw [List.lookup_cons_self]
    · have hne : (key == k) = false := beq_eq_false_iff_ne.2 fun e =>
        fresh (e ▸ mem_keys_of_mem hm)
      rw [List.lookup_cons, hne]
      exact ih nodup hm

/-! ## Setting a member -/

theorem keys_insertMember (members : List (String × Json)) (key : String) (value : Json) :
    keys (insertMember members key value) =
      if key ∈ keys members then keys members else keys members ++ [key] := by
  induction members with
  | nil => simp [insertMember, keys]
  | cons m members ih =>
    obtain ⟨k, v⟩ := m
    rw [insertMember]
    split
    · next h => simp [keys, h]
    · next h =>
      have step : keys ((k, v) :: insertMember members key value) =
          k :: keys (insertMember members key value) := rfl
      rw [step, ih]
      have hk : key ∈ keys ((k, v) :: members) ↔ key ∈ keys members := by
        simp [keys, Ne.symm h]
      simp only [hk]
      split <;> rfl

theorem nodup_insertMember (h : (keys members).Nodup) :
    (keys (insertMember members key value)).Nodup := by
  rw [keys_insertMember]
  split
  · exact h
  · next hk =>
    refine List.nodup_append.2 ⟨h, by simp, fun a ha b hb e => hk ?_⟩
    rw [List.mem_singleton] at hb
    exact hb ▸ e ▸ ha

theorem lookup_insertMember (members : List (String × Json)) (key other : String) (value : Json) :
    (insertMember members key value).lookup other =
      if other = key then some value else members.lookup other := by
  induction members with
  | nil =>
    by_cases h : other = key
    · simp [insertMember, h]
    · simp [insertMember, h, List.lookup_cons, beq_eq_false_iff_ne.2 h]
  | cons m members ih =>
    obtain ⟨k, v⟩ := m
    rw [insertMember]
    split
    · next hk =>
      subst hk
      by_cases h : other = k
      · simp [h]
      · simp [h, List.lookup_cons, beq_eq_false_iff_ne.2 h]
    · next hk =>
      by_cases h : other = k
      · subst h
        rw [List.lookup_cons_self, if_neg hk, List.lookup_cons_self]
      · rw [List.lookup_cons, beq_eq_false_iff_ne.2 h, List.lookup_cons, beq_eq_false_iff_ne.2 h]
        exact ih

theorem insertMember_of_lookup (h : members.lookup key = some value) :
    insertMember members key value = members := by
  induction members with
  | nil => cases h
  | cons m members ih =>
    obtain ⟨k, v⟩ := m
    rw [insertMember]
    split
    · next hk =>
      subst hk
      rw [List.lookup_cons_self] at h
      rw [Option.some.inj h]
    · next hk =>
      rw [List.lookup_cons, beq_eq_false_iff_ne.2 (Ne.symm hk)] at h
      rw [ih h]

theorem insertMember_insertMember (members : List (String × Json)) (key : String) (value : Json) :
    insertMember (insertMember members key value) key value = insertMember members key value :=
  insertMember_of_lookup (by rw [lookup_insertMember, if_pos rfl])

theorem insertMember_of_not_mem (h : key ∉ keys members) :
    insertMember members key value = members ++ [(key, value)] := by
  induction members with
  | nil => rfl
  | cons m members ih =>
    obtain ⟨k, v⟩ := m
    obtain ⟨hk, hm⟩ : key ≠ k ∧ key ∉ keys members := by simpa [keys] using h
    rw [insertMember, if_neg (Ne.symm hk), ih hm]
    rfl

theorem mem_insertMember {m : String × Json} (h : m ∈ insertMember members key value) :
    m = (key, value) ∨ m ∈ members := by
  induction members with
  | nil => exact .inl (List.mem_singleton.1 h)
  | cons first members ih =>
    obtain ⟨k, v⟩ := first
    rw [insertMember] at h
    split at h
    · next hk =>
      rcases List.mem_cons.1 h with e | h
      · exact .inl (hk ▸ e)
      · exact .inr (.tail _ h)
    · rcases List.mem_cons.1 h with e | h
      · exact .inr (e ▸ .head _)
      · exact (ih h).imp_right (.tail _)

/-! ## Collecting members -/

theorem nodup_collectMembers (members : List (String × Json)) :
    (keys (collectMembers members)).Nodup := by
  have collected (acc : List (String × Json)) (h : (keys acc).Nodup) :
      (keys (members.foldl (fun acc m => insertMember acc m.1 m.2) acc)).Nodup := by
    induction members generalizing acc with
    | nil => exact h
    | cons m members ih => exact ih _ (nodup_insertMember h)
  exact collected [] List.nodup_nil

theorem mem_collectMembers {m : String × Json} (h : m ∈ collectMembers members) : m ∈ members := by
  have collected (ms acc : List (String × Json))
      (h : m ∈ ms.foldl (fun acc m => insertMember acc m.1 m.2) acc) : m ∈ acc ∨ m ∈ ms := by
    induction ms generalizing acc with
    | nil => exact .inl h
    | cons first ms ih =>
      rcases ih _ h with h | h
      · rcases mem_insertMember h with e | h
        · exact .inr (e ▸ .head _)
        · exact .inl h
      · exact .inr (.tail _ h)
  exact (collected members [] h).resolve_left List.not_mem_nil

/-- Members that have keys of their own are collected as they are. -/
theorem collectMembers_of_nodup (h : (keys members).Nodup) : collectMembers members = members := by
  have collected (ms acc : List (String × Json)) (h : (keys (acc ++ ms)).Nodup) :
      ms.foldl (fun acc m => insertMember acc m.1 m.2) acc = acc ++ ms := by
    induction ms generalizing acc with
    | nil => simp
    | cons m ms ih =>
      obtain ⟨k, v⟩ := m
      have fresh : k ∉ keys acc := by
        rw [keys, List.map_append] at h
        exact fun hk => (List.nodup_append.1 h).2.2 k hk k (by simp) rfl
      rw [List.foldl_cons]
      dsimp only
      rw [insertMember_of_not_mem fresh, ih _ (by simpa using h)]
      simp
  exact collected members [] h

end FunctionApp.Json
