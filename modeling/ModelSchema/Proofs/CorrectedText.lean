import Mathlib.Data.List.Infix
import ModelSchema.Proofs.Correction

namespace ModelSchema

namespace Text

/-- Neither text begins with the other, so they cannot stand at the same place. -/
def Clash (p q : List Char) : Prop :=
  ¬p <+: q ∧ ¬q <+: p

instance (p q : List Char) : Decidable (Clash p q) :=
  inferInstanceAs (Decidable (_ ∧ _))

/-- No occurrence of `p` can begin before a copy of `r` and reach into it, or begin within one. -/
structure Apart (p r : List Char) : Prop where
  nonempty : p ≠ []
  reaching : ∀ q ∈ p.tails, q ≠ [] → Clash q r
  within : ∀ q ∈ r.tails, q ≠ [] → Clash p q

variable {p q r text : List Char}

theorem Clash.not_begins_append (h : Clash p q) (text : List Char) : ¬p <+: q ++ text := by
  intro hp
  obtain hp | hq := List.prefix_or_prefix_of_prefix hp (List.prefix_append q text)
  · exact h.1 hp
  · exact h.2 hq

theorem startsWith?_eq_none_iff : startsWith? p text = none ↔ ¬p <+: text := by
  constructor
  · rintro hnone ⟨rest, rfl⟩
    rw [startsWith?_append] at hnone
    cases hnone
  · intro hnot
    cases hstarts : startsWith? p text with
    | none => rfl
    | some rest => exact absurd ⟨rest, (eq_append_of_startsWith? hstarts).symm⟩ hnot

theorem startsWith?_isSome_iff : (startsWith? p text).isSome ↔ p <+: text := by
  rw [← not_iff_not, ← startsWith?_eq_none_iff]
  simp

theorem contains_iff : contains p text ↔ p <:+: text := by
  induction text with
  | nil => rw [contains, startsWith?_isSome_iff, List.prefix_nil, List.infix_nil]
  | cons c cs ih =>
    rw [contains, Bool.or_eq_true, startsWith?_isSome_iff, ih, List.infix_cons_iff]

@[elab_as_elim]
theorem scan_induction {P : List Char → Prop} (hp : p ≠ []) (nil : P [])
    (found : ∀ rest, P rest → P (p ++ rest))
    (skip : ∀ c cs, ¬p <+: c :: cs → P cs → P (c :: cs)) (text : List Char) : P text := by
  induction hn : text.length using Nat.strongRecOn generalizing text with
  | ind n ih =>
    cases text with
    | nil => exact nil
    | cons c cs =>
      by_cases hfound : p <+: c :: cs
      · obtain ⟨rest, hrest⟩ := hfound
        have hlength := congrArg List.length hrest
        have hpos := List.length_pos_iff.mpr hp
        rw [List.length_append, hn] at hlength
        exact hrest ▸ found rest (ih rest.length (by omega) rest rfl)
      · rw [List.length_cons] at hn
        exact skip c cs hfound (ih cs.length (by omega) cs rfl)

theorem replaceAll_skip {c : Char} {cs : List Char} (h : ¬p <+: c :: cs) :
    replaceAll p r (c :: cs) = c :: replaceAll p r cs :=
  replaceAll_cons (startsWith?_eq_none_iff.mpr h)

theorem replaceAll_of_not_occurs (h : ¬p <:+: text) : replaceAll p r text = text := by
  induction text with
  | nil => exact replaceAll_nil
  | cons c cs ih =>
    obtain ⟨hbegins, hoccurs⟩ := not_or.mp (mt List.infix_cons_iff.mpr h)
    rw [replaceAll_skip hbegins, ih hoccurs]

theorem begins_of_begins_replaceAll (h : Apart p r) (hq : q ∈ p.tails)
    (hbegins : q <+: replaceAll p r text) : q <+: text := by
  induction text using scan_induction h.nonempty generalizing q with
  | nil => rwa [replaceAll_nil] at hbegins
  | found rest ih =>
    rw [replaceAll_append h.nonempty] at hbegins
    by_cases hnil : q = []
    · exact hnil ▸ List.nil_prefix
    · exact absurd hbegins ((h.reaching q hq hnil).not_begins_append _)
  | skip c cs hskip ih =>
    rw [replaceAll_skip hskip] at hbegins
    cases q with
    | nil => exact List.nil_prefix
    | cons a q =>
      obtain ⟨rfl, hrest⟩ := List.cons_prefix_cons.mp hbegins
      have htail : q ∈ p.tails :=
        (List.mem_tails q p).mpr ((List.suffix_cons a q).trans ((List.mem_tails _ p).mp hq))
      exact List.cons_prefix_cons.mpr ⟨rfl, ih htail hrest⟩

theorem occurs_of_occurs_append (h : ∀ q ∈ r.tails, q ≠ [] → Clash p q) (hoccurs : p <:+: r ++ text) :
    p <:+: text := by
  induction r with
  | nil => exact hoccurs
  | cons a r ih =>
    have hself : a :: r ∈ (a :: r).tails := (List.mem_tails _ _).mpr List.suffix_rfl
    have hnot := (h _ hself (List.cons_ne_nil a r)).not_begins_append text
    refine ih (fun q hq => h q ?_) ((List.infix_cons_iff.mp hoccurs).resolve_left hnot)
    exact (List.mem_tails q _).mpr (((List.mem_tails q r).mp hq).trans (List.suffix_cons a r))

theorem not_occurs_replaceAll (h : Apart p r) (text : List Char) : ¬p <:+: replaceAll p r text := by
  induction text using scan_induction h.nonempty with
  | nil =>
    rw [replaceAll_nil, List.infix_nil]
    exact h.nonempty
  | found rest ih =>
    rw [replaceAll_append h.nonempty]
    exact mt (occurs_of_occurs_append h.within) ih
  | skip c cs hskip ih =>
    intro hoccurs
    rw [replaceAll_skip hskip] at hoccurs
    obtain hbegins | hoccurs := List.infix_cons_iff.mp hoccurs
    -- The occurrence would begin at the character that was skipped, and so it did before.
    · rw [← replaceAll_skip hskip] at hbegins
      have hself : p ∈ p.tails := (List.mem_tails p p).mpr List.suffix_rfl
      exact hskip (begins_of_begins_replaceAll h hself hbegins)
    · exact ih hoccurs

theorem replaceAll_ne_iff (h : Apart p r) : replaceAll p r text ≠ text ↔ p <:+: text := by
  constructor
  · exact fun hne => by_contra fun hnot => hne (replaceAll_of_not_occurs hnot)
  · intro hoccurs heq
    exact not_occurs_replaceAll h text (heq.symm ▸ hoccurs)

end Text

theorem patterns_apart : Text.Apart mapValuePattern correctedPattern :=
  ⟨by decide, by decide, by decide⟩

theorem needsCorrection_iff {text : List Char} :
    needsCorrection text ↔ mapValuePattern <:+: text :=
  Text.contains_iff

theorem correction_text (text : List Char) : (correction text).text = correctKeys text := by
  unfold correction
  split
  · rfl
  · rename_i hneeds
    exact (Text.replaceAll_of_not_occurs (mt needsCorrection_iff.mpr hneeds)).symm

theorem isRewritten_correction (text : List Char) :
    (correction text).isRewritten = needsCorrection text := by
  unfold correction
  split <;> simp [Correction.isRewritten, *]

theorem correction_of_not_occurs {text : List Char} (h : ¬mapValuePattern <:+: text) :
    correction text = .kept text :=
  if_neg (mt needsCorrection_iff.mp h)

theorem plural_append (before : List Char) {word : List Char} (h : word ≠ []) :
    plural (before ++ word) = before ++ plural word := by
  rw [plural, plural, List.dropLast_append_of_ne_nil h, List.append_assoc]

theorem endsInMapKey_iff {key : String} : EndsInMapKey key ↔ ∃ before : String,
    (before = "" ∨ before.toList.getLast? = some '\"') ∧ key = before ++ mapValueKey := by
  constructor
  · rintro (rfl | ⟨before, hkey⟩)
    · exact ⟨"", Or.inl rfl, rfl⟩
    · refine ⟨String.ofList (before ++ ['\"']), Or.inr (by simp), String.toList_injective ?_⟩
      rw [← hkey]
      simp
  · rintro ⟨before, rfl | hquote, rfl⟩
    · exact Or.inl rfl
    · obtain ⟨front, hfront⟩ := List.getLast?_eq_some_iff.mp hquote
      refine Or.inr ⟨front, ?_⟩
      rw [String.toList_append, hfront]
      simp

theorem correctKey_append {before : String}
    (h : before = "" ∨ before.toList.getLast? = some '\"') :
    correctKey (before ++ mapValueKey) = before ++ "additionalProperties" := by
  rw [correctKey, if_pos (endsInMapKey_iff.mpr ⟨before, h, rfl⟩), String.toList_append,
    plural_append _ (by decide), String.ofList_append, String.ofList_toList]
  rfl

namespace Proofs.CorrectedText

/-- Whatever the text, the pattern does not occur in it once it is corrected, and a second correction
keeps it as it is. The correction writes a new text if and only if the pattern occurs, and then the
new text is another one. -/
theorem corrected_once (text : List Char) :
    ¬mapValuePattern <:+: (correction text).text ∧
      correction (correction text).text = .kept (correction text).text ∧
      ((correction text).text ≠ text ↔ mapValuePattern <:+: text) ∧
      ((correction text).isRewritten ↔ mapValuePattern <:+: text) := by
  have hnot : ¬mapValuePattern <:+: (correction text).text := by
    rw [correction_text]
    exact Text.not_occurs_replaceAll patterns_apart text
  refine ⟨hnot, correction_of_not_occurs hnot, ?_, ?_⟩
  · rw [correction_text]
    exact Text.replaceAll_ne_iff patterns_apart
  · rw [isRewritten_correction]
    exact needsCorrection_iff

/-- The correction of the compact text of a value is the compact text of the value with some keys of
its objects changed, at any depth, and nothing else. The keys are those that end in the key of map
values, behind a quote if anything stands before it, and they get the plural in its place. -/
theorem corrected_compact (v : Json) :
    (correction v.compactChars).text = (v.mapKeys correctKey).compactChars ∧
      (∀ before : String, before = "" ∨ before.toList.getLast? = some '\"' →
        correctKey (before ++ "additionalProperty") = before ++ "additionalProperties") ∧
      ∀ key : String, (∀ before : String, before = "" ∨ before.toList.getLast? = some '\"' →
        key ≠ before ++ "additionalProperty") → correctKey key = key := by
  refine ⟨?_, fun before => correctKey_append, fun key hkey => if_neg fun hends => ?_⟩
  · rw [correction_text]
    exact Json.correctKeys_compactChars v
  · obtain ⟨before, hbefore, rfl⟩ := endsInMapKey_iff.mp hends
    exact hkey before hbefore rfl

end Proofs.CorrectedText

end ModelSchema
