import Mathlib.Data.List.Induction
import Mathlib.Data.List.Nodup
import ModelSchema.Entries

namespace ModelSchema.Entries

variable {α β : Type}

theorem get?_isSome_iff (es : Entries α) (key : String) : (get? es key).isSome ↔ key ∈ keys es := by
  rw [get?, List.lookup_isSome_iff, keys, List.mem_map]
  constructor
  · rintro ⟨p, hp, he⟩
    exact ⟨p, hp, (beq_iff_eq.mp he).symm⟩
  · rintro ⟨p, hp, he⟩
    exact ⟨p, hp, beq_iff_eq.mpr he.symm⟩

theorem get?_eq_some_iff {es : Entries α} (h : es.keys.Nodup) {key : String} {value : α} :
    get? es key = some value ↔ (key, value) ∈ es := by
  induction es with
  | nil => simp [get?]
  | cons p es ih =>
    obtain ⟨k, v⟩ := p
    obtain ⟨hk, hes⟩ := List.nodup_cons.mp h
    by_cases he : key = k
    · subst he
      have hm : (key, value) ∉ es := fun hm => hk (List.mem_map.mpr ⟨_, hm, rfl⟩)
      simp [get?, hm, eq_comm]
    · have hb : (key == k) = false := beq_false_of_ne he
      simp only [get?, List.lookup_cons, hb, List.mem_cons, Prod.mk.injEq, he, false_and, false_or]
      exact ih hes

theorem insertSorted_perm {es : Entries α} {key : String} (value : α) (h : key ∉ es.keys) :
    (insertSorted es key value).Perm ((key, value) :: es) := by
  induction es with
  | nil => exact List.Perm.refl _
  | cons p es ih =>
    obtain ⟨k, v⟩ := p
    simp only [keys, List.map_cons, List.mem_cons, not_or] at h
    simp only [insertSorted, Ne.symm h.1, if_false]
    split
    · exact List.Perm.refl _
    · exact ((ih h.2).cons (k, v)).trans (List.Perm.swap _ _ _)

theorem mem_of_get? {es : Entries α} {key : String} {value : α} (h : get? es key = some value) :
    (key, value) ∈ es := by
  obtain ⟨l, r, hl, _⟩ := List.lookup_eq_some_iff.mp h
  rw [hl]
  simp

theorem mem_insert {es : Entries α} {key : String} {value : α} {x : String × α}
    (h : x ∈ insert es key value) : x = (key, value) ∨ x ∈ es := by
  induction es with
  | nil => exact Or.inl (List.mem_singleton.mp h)
  | cons p es ih =>
    obtain ⟨k, v⟩ := p
    unfold insert at h
    split at h
    · rename_i hk
      obtain rfl | h := List.mem_cons.mp h
      · exact Or.inl (by rw [hk])
      · exact Or.inr (List.mem_cons_of_mem _ h)
    · obtain rfl | h := List.mem_cons.mp h
      · exact Or.inr List.mem_cons_self
      · exact (ih h).imp_right (List.mem_cons_of_mem _)

theorem get?_insert_of_ne {es : Entries α} {key other : String} (value : α) (h : other ≠ key) :
    get? (insert es key value) other = get? es other := by
  have hb : (other == key) = false := beq_false_of_ne h
  unfold get?
  induction es with
  | nil => simp only [insert, List.lookup_cons, hb]
  | cons p es ih =>
    obtain ⟨k, v⟩ := p
    unfold insert
    split
    · rename_i hk
      simp only [List.lookup_cons, hk, hb]
    · simp only [List.lookup_cons, ih]

theorem mem_keys_insert {es : Entries α} {key other : String} (value : α) :
    other ∈ (insert es key value).keys ↔ other = key ∨ other ∈ es.keys := by
  rw [keys_insert]
  split
  · rename_i hk
    exact ⟨Or.inr, fun h => h.elim (fun h => h ▸ hk) id⟩
  · rw [List.mem_append, List.mem_singleton, or_comm]

theorem ofList_append_singleton (pairs : List (String × α)) (p : String × α) :
    ofList (pairs ++ [p]) = insert (ofList pairs) p.1 p.2 := by
  simp [ofList]

theorem map_insert (f : α → β) (es : Entries α) (key : String) (value : α) :
    (insert es key value).map (fun e => (e.1, f e.2)) =
      insert (es.map fun e => (e.1, f e.2)) key (f value) := by
  induction es with
  | nil => rfl
  | cons e es ih =>
    obtain ⟨k, v⟩ := e
    by_cases h : k = key
    · simp [insert, h]
    · simp only [insert, h, if_false, List.map_cons, ih]

theorem map_ofList (f : α → β) (pairs : List (String × α)) :
    (ofList pairs).map (fun e => (e.1, f e.2)) = ofList (pairs.map fun e => (e.1, f e.2)) := by
  induction pairs using List.reverseRecOn with
  | nil => rfl
  | append_singleton pairs p ih =>
    rw [ofList_append_singleton, map_insert, ih, List.map_append, List.map_singleton,
      ofList_append_singleton]

theorem insert_of_not_mem {es : Entries α} {key : String} (value : α) (h : key ∉ keys es) :
    insert es key value = es ++ [(key, value)] := by
  induction es with
  | nil => rfl
  | cons e es ih =>
    obtain ⟨k, v⟩ := e
    simp only [keys, List.map_cons, List.mem_cons, not_or] at h
    simp only [insert, Ne.symm h.1, if_false, List.cons_append, ih h.2]

theorem keys_insert_nodup {es : Entries α} (h : (keys es).Nodup) (key : String) (value : α) :
    (keys (insert es key value)).Nodup := by
  rw [keys_insert]
  split
  · exact h
  · rename_i hk
    exact List.nodup_append'.mpr ⟨h, List.nodup_singleton key,
      List.disjoint_singleton.mpr hk⟩

theorem keys_ofList_nodup (pairs : List (String × α)) : (keys (ofList pairs)).Nodup := by
  induction pairs using List.reverseRecOn with
  | nil => exact List.nodup_nil
  | append_singleton pairs p ih =>
    rw [ofList_append_singleton]
    exact keys_insert_nodup ih p.1 p.2

theorem ofList_of_nodup {pairs : List (String × α)} (h : (keys pairs).Nodup) :
    ofList pairs = pairs := by
  induction pairs using List.reverseRecOn with
  | nil => rfl
  | append_singleton pairs p ih =>
    rw [keys, List.map_append, List.nodup_append'] at h
    rw [ofList_append_singleton, ih h.1]
    exact insert_of_not_mem _ fun hm => h.2.2 hm (List.mem_singleton_self _)

theorem mem_of_mem_ofList {pairs : List (String × α)} {x : String × α} (h : x ∈ ofList pairs) :
    x ∈ pairs := by
  induction pairs using List.reverseRecOn with
  | nil => cases h
  | append_singleton pairs p ih =>
    rw [ofList_append_singleton] at h
    obtain rfl | h := mem_insert h
    · exact List.mem_append_right _ (List.mem_singleton_self _)
    · exact List.mem_append_left _ (ih h)

theorem eraseDups_concat [BEq α] [LawfulBEq α] (xs : List α) (x : α) :
    (xs ++ [x]).eraseDups = if x ∈ xs then xs.eraseDups else xs.eraseDups ++ [x] := by
  rw [List.eraseDups_append]
  by_cases hx : x ∈ xs <;> simp [List.removeAll, hx, List.eraseDups_cons]

theorem keys_ofList (pairs : List (String × α)) : keys (ofList pairs) = (keys pairs).eraseDups := by
  induction pairs using List.reverseRecOn with
  | nil => rfl
  | append_singleton pairs p ih =>
    have hkeys : keys (pairs ++ [p]) = keys pairs ++ [p.1] := List.map_append
    rw [ofList_append_singleton, keys_insert, ih, hkeys, eraseDups_concat]
    simp only [List.mem_eraseDups]

theorem get?_ofList_append (pairs : List (String × α)) {later : List (String × α)}
    {key : String} (h : key ∉ keys later) :
    get? (ofList (pairs ++ later)) key = get? (ofList pairs) key := by
  induction later using List.reverseRecOn with
  | nil => rw [List.append_nil]
  | append_singleton later p ih =>
    rw [keys, List.map_append, List.mem_append, not_or] at h
    have hp : key ≠ p.1 := fun heq => h.2 (by simp [heq])
    rw [← List.append_assoc, ofList_append_singleton, get?_insert_of_ne _ hp, ih h.1]

theorem get?_ofList_of_last (pairs : List (String × α)) {later : List (String × α)}
    {key : String} (value : α) (h : key ∉ keys later) :
    get? (ofList (pairs ++ (key, value) :: later)) key = some value := by
  have hsplit : pairs ++ (key, value) :: later = pairs ++ [(key, value)] ++ later := by simp
  rw [hsplit, get?_ofList_append _ h, ofList_append_singleton, get?_insert_self]

theorem get?_ofList_of_not_mem {pairs : List (String × α)} {key : String} (h : key ∉ keys pairs) :
    get? (ofList pairs) key = none :=
  get?_ofList_append [] h

end ModelSchema.Entries
