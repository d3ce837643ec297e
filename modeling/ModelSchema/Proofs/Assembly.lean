import ModelSchema.Proofs.Entries
import ModelSchema.Schema.Assembly

namespace ModelSchema

theorem insertEntry_perm (e : Entry) (es : List Entry) : (insertEntry e es).Perm (e :: es) := by
  induction es with
  | nil => exact List.Perm.refl _
  | cons f es ih =>
    unfold insertEntry
    split
    · exact (ih.cons f).trans (List.Perm.swap e f es)
    · exact List.Perm.refl _

theorem sortEntries_perm (es : List Entry) : (sortEntries es).Perm es := by
  induction es with
  | nil => exact List.Perm.refl _
  | cons e es ih => exact (insertEntry_perm e _).trans (ih.cons e)

theorem insertEntry_sorted (e : Entry) {es : List Entry} (h : es.Pairwise (·.name ≤ ·.name)) :
    (insertEntry e es).Pairwise (·.name ≤ ·.name) := by
  induction es with
  | nil => exact List.pairwise_singleton _ _
  | cons f es ih =>
    obtain ⟨hf, hes⟩ := List.pairwise_cons.mp h
    unfold insertEntry
    split
    · rename_i hlt
      refine List.pairwise_cons.mpr ⟨?_, ih hes⟩
      intro x hx
      obtain rfl | hx := List.mem_cons.mp ((insertEntry_perm e es).mem_iff.mp hx)
      · exact String.not_lt.mp (String.lt_asymm hlt)
      · exact hf x hx
    · rename_i hge
      have hle : e.name ≤ f.name := String.not_lt.mp hge
      refine List.pairwise_cons.mpr ⟨?_, h⟩
      intro x hx
      obtain rfl | hx := List.mem_cons.mp hx
      · exact hle
      · exact String.le_trans hle (hf x hx)

theorem sortEntries_sorted (es : List Entry) : (sortEntries es).Pairwise (·.name ≤ ·.name) := by
  induction es with
  | nil => exact List.Pairwise.nil
  | cons e es ih => exact insertEntry_sorted e ih

theorem sortEntries_eq_of_perm {es fs : List Entry} (h : es.Perm fs)
    (hn : (es.map (·.name)).Nodup) : sortEntries es = sortEntries fs := by
  refine List.Perm.eq_of_pairwise ?_ (sortEntries_sorted es) (sortEntries_sorted fs)
    ((sortEntries_perm es).trans (h.trans (sortEntries_perm fs).symm))
  intro a b ha hb hab hba
  have ha' := (sortEntries_perm es).mem_iff.mp ha
  have hb' := h.mem_iff.mpr ((sortEntries_perm fs).mem_iff.mp hb)
  exact List.inj_on_of_nodup_map hn ha' hb' (String.le_antisymm hab hba)

namespace Assembly

theorem holds_iff (es : Entries Property) (key : String) : holds es key = true ↔ key ∈ es.keys :=
  Entries.get?_isSome_iff es key

theorem error?_eq_none {a : Assembly} {e : Entry} (h : a.error? e = none) :
    e.name ∉ a.definitions.keys ∧ (a.resourceKey e).1 ∉ a.resources.keys := by
  unfold error? at h
  split at h
  · cases h
  split at h
  · cases h
  · rename_i hd hr
    exact ⟨fun hm => hd ((holds_iff _ _).mpr hm), fun hm => hr ((holds_iff _ _).mpr hm)⟩

theorem addAll_cons_ok {a b : Assembly} {e : Entry} {es : List Entry}
    (h : a.addAll (e :: es) = (b, none)) : a.error? e = none ∧ (a.add e).addAll es = (b, none) := by
  unfold addAll at h
  cases he : a.error? e with
  | none =>
    rw [he] at h
    exact ⟨rfl, h⟩
  | some error => cases error <;> simp [he] at h

/-- The assembly went from `a` to `b` and took in all of `es`. -/
structure Takes (a : Assembly) (es : List Entry) (b : Assembly) : Prop where
  definitions : b.definitions.Perm (es.map (fun e => (e.name, e.definition)) ++ a.definitions)
  names : (es.map (·.name)).Nodup
  fresh : ∀ e ∈ es, e.name ∉ a.definitions.keys
  resources : ∀ r ∈ b.resources, r ∈ a.resources ∨ ∃ e ∈ es, r.2 = e.definition
  log : ∀ x ∈ b.log, x ∈ a.log ∨ x.level = .warning

theorem mem_note_log {a : Assembly} {e : Entry} {x : Event} (h : x ∈ (a.note e).log) :
    x ∈ a.log ∨ x.level = .warning := by
  unfold note at h
  split at h
  · obtain h | h := List.mem_append.mp h
    · exact Or.inl h
    · rw [List.mem_singleton.mp h]
      exact Or.inr rfl
  · exact Or.inl h

theorem addAll_takes {a b : Assembly} {es : List Entry} (h : a.addAll es = (b, none)) :
    Takes a es b := by
  induction es generalizing a with
  | nil =>
    cases h
    exact ⟨List.Perm.refl _, List.nodup_nil, by simp, fun r hr => Or.inl hr, fun x hx => Or.inl hx⟩
  | cons e es ih =>
    obtain ⟨he, h⟩ := addAll_cons_ok h
    obtain ⟨hname, hkey⟩ := error?_eq_none he
    have ht := ih h
    have hp : (a.add e).definitions.Perm ((e.name, e.definition) :: a.definitions) :=
      Entries.insertSorted_perm e.definition hname
    have hmem : ∀ k, k ∈ (a.add e).definitions.keys ↔ k = e.name ∨ k ∈ a.definitions.keys := by
      intro k
      exact ((hp.map Prod.fst).mem_iff).trans (by simp [Entries.keys])
    refine ⟨?_, ?_, ?_, ?_, ?_⟩
    · exact ht.definitions.trans ((hp.append_left _).trans List.perm_middle)
    · rw [List.map_cons, List.nodup_cons]
      refine ⟨?_, ht.names⟩
      intro hm
      obtain ⟨f, hf, hfe⟩ := List.mem_map.mp hm
      exact ht.fresh f hf ((hmem _).mpr (Or.inl hfe))
    · intro f hf
      obtain rfl | hf := List.mem_cons.mp hf
      · exact hname
      · exact fun hm => ht.fresh f hf ((hmem _).mpr (Or.inr hm))
    · intro r hr
      obtain hr | ⟨f, hf, hrf⟩ := ht.resources r hr
      · have hr' := (Entries.insertSorted_perm e.definition hkey).mem_iff.mp hr
        obtain rfl | hr' := List.mem_cons.mp hr'
        · exact Or.inr ⟨e, List.mem_cons_self, rfl⟩
        · exact Or.inl hr'
      · exact Or.inr ⟨f, List.mem_cons_of_mem _ hf, hrf⟩
    · intro x hx
      obtain hx | hx := ht.log x hx
      · exact mem_note_log hx
      · exact Or.inr hx

end Assembly

/-- The assembly `a` is made of the entries `es`. -/
structure Assembles (es : List Entry) (a : Assembly) : Prop where
  definitions : a.definitions.Perm (es.map fun e => (e.name, e.definition))
  names : (es.map (·.name)).Nodup
  resources : ∀ r ∈ a.resources, ∃ e ∈ es, r.2 = e.definition
  log : ∀ x ∈ a.log, x.level = .warning

theorem assemble_assembles {es : List Entry} {a : Assembly} (h : assemble es = (a, none)) :
    Assembles es a := by
  have hp := sortEntries_perm es
  have ht := Assembly.addAll_takes h
  refine ⟨?_, ?_, ?_, ?_⟩
  · exact ht.definitions.trans (by simpa using hp.map _)
  · exact (hp.map _).nodup_iff.mp ht.names
  · intro r hr
    obtain hr | ⟨e, he, hre⟩ := ht.resources r hr
    · cases hr
    · exact ⟨e, hp.mem_iff.mp he, hre⟩
  · intro x hx
    obtain hx | hx := ht.log x hx
    · cases hx
    · exact hx

theorem assemble_eq_of_perm {es fs : List Entry} (h : es.Perm fs)
    (hn : (es.map (·.name)).Nodup) : assemble es = assemble fs := by
  rw [assemble, assemble, sortEntries_eq_of_perm h hn]

namespace Assembles

variable {es : List Entry} {a : Assembly}

theorem keys_perm (h : Assembles es a) : a.definitions.keys.Perm (es.map (·.name)) := by
  have hp := h.definitions.map Prod.fst
  rwa [List.map_map] at hp

theorem keys_nodup (h : Assembles es a) : a.definitions.keys.Nodup :=
  h.keys_perm.nodup_iff.mpr h.names

theorem get?_iff (h : Assembles es a) {key : String} {p : Property} :
    Entries.get? a.definitions key = some p ↔ ∃ e ∈ es, e.name = key ∧ e.definition = p := by
  rw [Entries.get?_eq_some_iff h.keys_nodup, h.definitions.mem_iff, List.mem_map]
  simp only [Prod.mk.injEq]

end Assembles

end ModelSchema
