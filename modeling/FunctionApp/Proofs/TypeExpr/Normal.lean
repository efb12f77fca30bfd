import FunctionApp.Proofs.TypeExpr.Reading

/-!
# Types in normal form

A type is normal if every union in it has two or more distinct members that are no unions, every
intersection two or more members, every tuple one or more, and if its names are names that no
built-in type has. Every type that a text denotes is normal (`normal_of_parse`), because `unionOf`
flattens and drops repetitions wherever the grammar makes a union.
-/

namespace FunctionApp.TypeExpr

/-- A name that the grammar keeps for a built-in type. -/
def IsKeyword (name : String) : Prop := name = "map" ∨ name = "table" ∨ ∃ b : Builtin, name = b.word

inductive Normal : TypeExpr → Prop where
  | builtin (b : Builtin) : Normal (.builtin b)
  | nil : Normal .nil
  | array {ty : TypeExpr} : Normal ty → Normal (.array ty)
  | map {ty : TypeExpr} : Normal ty → Normal (.map ty)
  | table {ty : TypeExpr} : Normal ty → Normal (.table ty)
  | tuple {tys : List TypeExpr} : tys ≠ [] → (∀ ty ∈ tys, Normal ty) → Normal (.tuple tys)
  | union {tys : List TypeExpr} :
      2 ≤ tys.length → tys.Nodup → (∀ ty ∈ tys, ty.isUnion = false) → (∀ ty ∈ tys, Normal ty) →
      Normal (.union tys)
  | intersection {tys : List TypeExpr} :
      2 ≤ tys.length → (∀ ty ∈ tys, Normal ty) → Normal (.intersection tys)
  | named {name : String} : IsName name → ¬IsKeyword name → Normal (.named name)

/-! ## Adding members -/

theorem addMember_of_mem {members : List TypeExpr} {ty : TypeExpr} (h : ty ∈ members) :
    addMember members ty = members :=
  if_pos h

theorem addMember_of_not_mem {members : List TypeExpr} {ty : TypeExpr} (h : ty ∉ members) :
    addMember members ty = members ++ [ty] :=
  if_neg h

theorem mem_addMember {members : List TypeExpr} {ty m : TypeExpr} :
    m ∈ addMember members ty ↔ m ∈ members ∨ m = ty := by
  by_cases h : ty ∈ members
  · rw [addMember_of_mem h]
    constructor
    · exact .inl
    · rintro (hm | rfl)
      · exact hm
      · exact h
  · rw [addMember_of_not_mem h, List.mem_append, List.mem_singleton]

theorem nodup_addMember {members : List TypeExpr} (h : members.Nodup) (ty : TypeExpr) :
    (addMember members ty).Nodup := by
  by_cases hm : ty ∈ members
  · rwa [addMember_of_mem hm]
  · rw [addMember_of_not_mem hm, List.nodup_append]
    exact ⟨h, List.pairwise_singleton _ ty, fun a ha b hb e => hm (by simp_all)⟩

theorem mem_foldl_addMember {types members : List TypeExpr} {m : TypeExpr} :
    m ∈ types.foldl addMember members ↔ m ∈ members ∨ m ∈ types := by
  induction types generalizing members with
  | nil => simp
  | cons ty types ih => rw [List.foldl_cons, ih, mem_addMember, List.mem_cons, or_assoc]

/-- What a union flattens to are the members of its parts. -/
theorem mem_flattened {types : List TypeExpr} {m : TypeExpr} :
    m ∈ (types.flatMap unionMembers).foldl addMember [] ↔ ∃ ty ∈ types, m ∈ ty.unionMembers := by
  simp [mem_foldl_addMember]

theorem nodup_foldl_addMember {types members : List TypeExpr} (h : members.Nodup) :
    (types.foldl addMember members).Nodup := by
  induction types generalizing members with
  | nil => exact h
  | cons ty types ih => exact ih (nodup_addMember h ty)

theorem length_foldl_addMember_le (types members : List TypeExpr) :
    (types.foldl addMember members).length ≤ members.length + types.length := by
  induction types generalizing members with
  | nil => simp
  | cons ty types ih =>
    have step : (addMember members ty).length ≤ members.length + 1 := by
      by_cases h : ty ∈ members
      · rw [addMember_of_mem h]
        omega
      · rw [addMember_of_not_mem h]
        simp
    have := ih (addMember members ty)
    rw [List.foldl_cons, List.length_cons]
    omega

/-- Where no member is dropped, the members stay as they are. -/
theorem foldl_addMember_of_length {types members : List TypeExpr}
    (h : (types.foldl addMember members).length = members.length + types.length) :
    types.foldl addMember members = members ++ types := by
  induction types generalizing members with
  | nil => simp
  | cons ty types ih =>
    rw [List.foldl_cons, List.length_cons] at h
    have short := length_foldl_addMember_le types (addMember members ty)
    by_cases hm : ty ∈ members
    · rw [addMember_of_mem hm] at h short
      omega
    · rw [List.foldl_cons]
      rw [addMember_of_not_mem hm] at h ⊢
      rw [ih (by rw [h, List.length_append, List.length_singleton]; omega), List.append_assoc]
      rfl

theorem foldl_addMember_of_nodup {types members : List TypeExpr} (h : (members ++ types).Nodup) :
    types.foldl addMember members = members ++ types := by
  induction types generalizing members with
  | nil => simp
  | cons ty types ih =>
    have hm : ty ∉ members := fun hm => (List.nodup_append.1 h).2.2 ty hm ty List.mem_cons_self rfl
    rw [List.foldl_cons, addMember_of_not_mem hm, ih (by simpa using h), List.append_assoc]
    rfl

/-! ## Unions of normal types -/

theorem unionMembers_of_not_isUnion {ty : TypeExpr} (h : ty.isUnion = false) :
    unionMembers ty = [ty] := by
  cases ty with
  | union members => cases h
  | _ => rfl

theorem flatMap_unionMembers {types : List TypeExpr} (h : ∀ ty ∈ types, ty.isUnion = false) :
    types.flatMap unionMembers = types := by
  induction types with
  | nil => rfl
  | cons ty types ih =>
    rw [List.flatMap_cons, unionMembers_of_not_isUnion (h ty (.head _)),
      ih fun m hm => h m (.tail _ hm)]
    rfl

theorem unionMembers_ofMembers {members : List TypeExpr} (h : ∀ m ∈ members, m.isUnion = false) :
    unionMembers (ofMembers members) = members := by
  match members with
  | [] => rfl
  | [m] => exact unionMembers_of_not_isUnion (h m (.head _))
  | _ :: _ :: _ => rfl

/-- Distinct types that are no unions are the members of their union. -/
theorem unionOf_eq_ofMembers {types : List TypeExpr} (hd : types.Nodup)
    (hu : ∀ ty ∈ types, ty.isUnion = false) : unionOf types = ofMembers types := by
  rw [unionOf, flatMap_unionMembers hu, foldl_addMember_of_nodup (by simpa using hd),
    List.nil_append]

theorem normal_unionMembers {ty : TypeExpr} (h : Normal ty) :
    unionMembers ty ≠ [] ∧ ∀ m ∈ unionMembers ty, m.isUnion = false ∧ Normal m := by
  cases hu : ty.isUnion with
  | false =>
    rw [unionMembers_of_not_isUnion hu]
    exact ⟨List.cons_ne_nil _ _, fun m hm => List.mem_singleton.1 hm ▸ ⟨hu, h⟩⟩
  | true =>
    cases h with
    | union hl _ hm hn =>
      refine ⟨List.length_pos_iff.1 ?_, fun m h => ⟨hm m h, hn m h⟩⟩
      exact Nat.lt_of_lt_of_le Nat.two_pos hl
    | _ => cases hu

/-- Distinct normal types that are no unions make a normal type. -/
theorem normal_ofMembers {members : List TypeExpr} (hne : members ≠ []) (hd : members.Nodup)
    (h : ∀ m ∈ members, m.isUnion = false ∧ Normal m) : Normal (ofMembers members) := by
  match members, hne with
  | [ty], _ => exact (h ty (.head _)).2
  | ty :: next :: rest, _ =>
    exact .union (by simp) hd (fun m hm => (h m hm).1) fun m hm => (h m hm).2

/-- The union of normal types is normal. -/
theorem normal_unionOf {types : List TypeExpr} (hne : types ≠ []) (h : ∀ ty ∈ types, Normal ty) :
    Normal (unionOf types) := by
  have members : ∀ m, m ∈ (types.flatMap unionMembers).foldl addMember [] →
      m.isUnion = false ∧ Normal m := by
    intro m hm
    obtain ⟨ty, ht, hm⟩ := mem_flattened.1 hm
    exact (normal_unionMembers (h ty ht)).2 m hm
  refine normal_ofMembers (fun hn => ?_) (nodup_foldl_addMember List.nodup_nil) members
  obtain ⟨ty, rest, rfl⟩ := List.exists_cons_of_ne_nil hne
  obtain ⟨m, more, hm⟩ :=
    List.exists_cons_of_ne_nil (normal_unionMembers (h ty List.mem_cons_self)).1
  have kept : m ∈ ((ty :: rest).flatMap unionMembers).foldl addMember [] :=
    mem_flattened.2 ⟨ty, .head _, by simp [hm]⟩
  rw [hn] at kept
  cases kept

theorem normal_optional {ty : TypeExpr} (h : Normal ty) : Normal (optional ty) := by
  refine normal_unionOf (by simp) fun m hm => ?_
  rcases List.mem_cons.1 hm with rfl | hm
  · exact h
  · exact List.mem_singleton.1 hm ▸ .nil

/-! ## What is derived is normal -/

open Grammar

theorem normal_of_suffixes {ty r : TypeExpr} {ts : List Token} (h : Suffixes ty ts r)
    (hn : Normal ty) : Normal r := by
  induction h with
  | nil => exact hn
  | array _ ih => exact ih (.array hn)
  | optional _ ih => exact ih (normal_optional hn)

theorem normal_alternation {first : TypeExpr} {more : List TypeExpr} (hf : Normal first)
    (hm : ∀ ty ∈ more, Normal ty) : Normal (alternation first more) := by
  unfold alternation
  split
  · exact hf
  · exact normal_unionOf (by simp) (List.forall_mem_cons.2 ⟨hf, hm⟩)

theorem normal_conjunction {first : TypeExpr} {more : List TypeExpr} (hf : Normal first)
    (hm : ∀ ty ∈ more, Normal ty) : Normal (conjunction first more) := by
  unfold conjunction
  split
  · exact hf
  · next hne =>
    have := List.length_pos_iff.2 hne
    exact .intersection (by rw [List.length_cons]; omega) (List.forall_mem_cons.2 ⟨hf, hm⟩)

/-- Tokens whose names are names. -/
def Named (ts : List Token) : Prop := ∀ name, .name name ∈ ts → IsName name

theorem named_append {ts us : List Token} : Named (ts ++ us) ↔ Named ts ∧ Named us := by
  simp only [Named, List.mem_append]
  exact ⟨fun h => ⟨fun n hn => h n (.inl hn), fun n hn => h n (.inr hn)⟩,
    fun h n hn => hn.elim (h.1 n) (h.2 n)⟩

theorem Named.tail {t : Token} {ts : List Token} (h : Named (t :: ts)) : Named ts :=
  fun n hn => h n (.tail _ hn)

mutual

/-- What tokens derive is normal, if their names are names. -/
theorem normal_union : ∀ {ts : List Token} {ty : TypeExpr}, IsUnion ts ty → Named ts → Normal ty
  | _, _, .mk hi ha, hn =>
    normal_alternation (normal_intersection hi (named_append.1 hn).1)
      (normal_alternatives ha (named_append.1 hn).2)

theorem normal_alternatives : ∀ {ts : List Token} {tys : List TypeExpr}, Alternatives ts tys →
    Named ts → ∀ ty ∈ tys, Normal ty
  | _, _, .nil, _ => by simp
  | _, _, .cons hi ha, hn =>
    have parts := named_append.1 hn.tail
    List.forall_mem_cons.2 ⟨normal_intersection hi parts.1, normal_alternatives ha parts.2⟩

theorem normal_intersection : ∀ {ts : List Token} {ty : TypeExpr}, IsIntersection ts ty →
    Named ts → Normal ty
  | _, _, .mk hp ho, hn =>
    normal_conjunction (normal_postfixed hp (named_append.1 hn).1)
      (normal_operands ho (named_append.1 hn).2)

theorem normal_operands : ∀ {ts : List Token} {tys : List TypeExpr}, Operands ts tys →
    Named ts → ∀ ty ∈ tys, Normal ty
  | _, _, .nil, _ => by simp
  | _, _, .cons hp ho, hn =>
    have parts := named_append.1 hn.tail
    List.forall_mem_cons.2 ⟨normal_postfixed hp parts.1, normal_operands ho parts.2⟩

theorem normal_postfixed : ∀ {ts : List Token} {ty : TypeExpr}, IsPostfix ts ty → Named ts → Normal ty
  | _, _, .mk hp hs, hn => normal_of_suffixes hs (normal_primary hp (named_append.1 hn).1)

theorem normal_primary : ∀ {ts : List Token} {ty : TypeExpr}, IsPrimary ts ty → Named ts → Normal ty
  | _, _, .nil, _ => .nil
  | _, _, .parens h, hn => normal_union h (named_append.1 hn.tail).1
  | _, _, .tuple h he, hn =>
    have parts := named_append.1 hn.tail
    have more := named_append.1 parts.2
    .tuple (by simp) (List.forall_mem_cons.2 ⟨normal_union h parts.1, normal_elements he more.1⟩)
  | _, _, .map h, hn => .map (normal_union h (named_append.1 hn.tail.tail).1)
  | _, _, .table h, hn => .table (normal_union h (named_append.1 hn.tail.tail).1)
  | _, _, .builtin b, _ => .builtin b
  | _, .named name, .named hm ht hb, hn => by
    refine .named (hn name (.head _)) ?_
    rintro (h | h | ⟨b, h⟩)
    · exact hm h
    · exact ht h
    · exact hb b h

theorem normal_elements : ∀ {ts : List Token} {tys : List TypeExpr}, Elements ts tys →
    Named ts → ∀ ty ∈ tys, Normal ty
  | _, _, .nil, _ => by simp
  | _, _, .cons h he, hn =>
    have parts := named_append.1 hn.tail
    List.forall_mem_cons.2 ⟨normal_union h parts.1, normal_elements he parts.2⟩

end

/-- **A type that was read is normal.** -/
theorem normal_of_parse {text : String} {ty : TypeExpr} (h : parse text = .ok ty) : Normal ty := by
  obtain ⟨ts, hs, hd⟩ := derives_of_parse h
  exact normal_union hd fun _ hn => isName_of_spells hs hn

end FunctionApp.TypeExpr
