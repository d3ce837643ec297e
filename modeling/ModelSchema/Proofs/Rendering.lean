import Mathlib.Data.List.TakeWhile
import ModelSchema.Proofs.Correction
import ModelSchema.Proofs.Layout

namespace ModelSchema

namespace Json

theorem bytes_append (l l' : List Char) : bytes (l ++ l') = bytes l + bytes l' := by
  induction l with
  | nil => rw [List.nil_append, bytes, Nat.zero_add]
  | cons c l ih => rw [List.cons_append, bytes, bytes, ih, Nat.add_assoc]

theorem bytes_reverse (l : List Char) : bytes l.reverse = bytes l := by
  induction l with
  | nil => rfl
  | cons c l ih =>
    rw [List.reverse_cons, bytes_append, ih, bytes, bytes, bytes, Nat.add_zero, Nat.add_comm]

theorem position_behindNext {before : List Char} (after : List Char) {c : Char}
    (hbefore : '\n' ∉ before) (hc : c ≠ '\n') :
    (Mark.behindNext (c :: after)).position (before ++ c :: after) = ⟨1, bytes before + 1⟩ := by
  have hconsumed : (before ++ c :: after).take
      ((before ++ c :: after).length - (c :: after).length) = before := by
    rw [List.length_append, Nat.add_sub_cancel, List.take_left]
  have hline : before.reverse.takeWhile (· ≠ '\n') = before.reverse := by
    rw [List.takeWhile_eq_self_iff]
    intro b hb
    refine decide_eq_true fun heq => hbefore ?_
    rwa [heq, List.mem_reverse] at hb
  unfold Mark.position
  simp only [Mark.behindNext, hconsumed, hline, bytes_reverse, List.count_eq_zero.mpr hbefore]
  split
  · contradiction
  · rename_i heq
    exact absurd (List.cons.inj heq).1 hc
  · rfl

theorem newline_not_mem_cons {c : Char} {text : List Char} (hc : c ≠ '\n') (h : '\n' ∉ text) :
    '\n' ∉ c :: text :=
  List.not_mem_cons_of_ne_of_not_mem hc.symm h

theorem newline_not_mem_quoted (s : String) {rest : List Char} (h : '\n' ∉ rest) :
    '\n' ∉ quoted s rest := by
  rw [quoted_eq]
  refine newline_not_mem_cons (by decide) ?_
  induction s.toList with
  | nil => exact newline_not_mem_cons (by decide) h
  | cons c cs ih =>
    rw [escaped_cons, List.mem_append]
    exact not_or.mpr ⟨newline_not_mem_escape c, ih⟩

/-- The compact text of `v` stays on its line. -/
def OneLine (v : Json) : Prop :=
  ∀ rest, '\n' ∉ rest → '\n' ∉ compactOnto v rest

theorem newline_not_mem_compactItems {xs : List Json} (h : ∀ x ∈ xs, OneLine x)
    {rest : List Char} (hr : '\n' ∉ rest) : '\n' ∉ compactItems xs rest := by
  induction xs with
  | nil => exact newline_not_mem_cons (by decide) hr
  | cons x xs ih =>
    obtain ⟨hx, hxs⟩ := List.forall_mem_cons.mp h
    exact newline_not_mem_cons (by decide) (hx _ (ih hxs))

theorem newline_not_mem_compactMembers {ms : List (String × Json)} (h : ∀ m ∈ ms, OneLine m.2)
    {rest : List Char} (hr : '\n' ∉ rest) : '\n' ∉ compactMembers ms rest := by
  induction ms with
  | nil => exact newline_not_mem_cons (by decide) hr
  | cons m ms ih =>
    obtain ⟨hm, hms⟩ := List.forall_mem_cons.mp h
    exact newline_not_mem_cons (by decide) (newline_not_mem_quoted _
      (newline_not_mem_cons (by decide) (hm _ (ih hms))))

theorem oneLine (v : Json) : OneLine v := by
  have hnumeric : ∀ {l rest : List Char}, (∀ c ∈ l, IsNumeric c) → '\n' ∉ rest →
      '\n' ∉ l ++ rest := by
    intro l rest hl hr hmem
    exact (List.mem_append.mp hmem).elim (fun hc => absurd (hl _ hc) (by decide)) hr
  induction v using Json.induction with
  | null => exact fun rest hr => by simp [compactOnto, hr]
  | bool b => exact fun rest hr => by cases b <;> simp [compactOnto, hr]
  | int n => exact fun rest => hnumeric fun _ hc => isNumeric_of_mem_intText hc
  | float x => exact fun rest => hnumeric isNumeric_of_mem_text
  | string s => exact fun rest => newline_not_mem_quoted s
  | array xs ih =>
    intro rest hr
    cases xs with
    | nil => exact newline_not_mem_cons (by decide) (newline_not_mem_cons (by decide) hr)
    | cons x xs =>
      obtain ⟨hx, hxs⟩ := List.forall_mem_cons.mp ih
      exact newline_not_mem_cons (by decide) (hx _ (newline_not_mem_compactItems hxs hr))
  | object ms ih =>
    intro rest hr
    cases ms with
    | nil => exact newline_not_mem_cons (by decide) (newline_not_mem_cons (by decide) hr)
    | cons m ms =>
      obtain ⟨hm, hms⟩ := List.forall_mem_cons.mp ih
      exact newline_not_mem_cons (by decide) (newline_not_mem_quoted _
        (newline_not_mem_cons (by decide) (hm _ (newline_not_mem_compactMembers hms hr))))

end Json

namespace Proofs.Rendering

open Json

section

variable {d : Document}

theorem render_rereads (hd : d.toJson.Storable)
    (hdepth : (d.toJson.mapKeys correctKey).depth ≤ maxDepth) :
    d.render = .ok (d.toJson.mapKeys correctKey).reread.pretty ∧
      ofText? (d.toJson.mapKeys correctKey).reread.pretty.toList =
        .ok (d.toJson.mapKeys correctKey).reread.reread := by
  have hv : (d.toJson.mapKeys correctKey).Storable := hd.mapKeys correctKey
  constructor
  · rw [Document.render, d.correctedText_eq, (ofText?_compactChars hv).1 hdepth]
  · exact ofText?_pretty hv.reread ((depth_reread_le _).trans hdepth)

theorem reread_reread {v : Json} (h : v.Representable) : v.reread.reread = v.merged := by
  rw [h.reread, Representable.reread h.merged, merged_merged]

theorem render_fits (hd : d.toJson.Representable)
    (hdepth : (d.toJson.mapKeys correctKey).depth ≤ maxDepth) :
    d.render = .ok (d.toJson.mapKeys correctKey).merged.pretty ∧
      ofText? (d.toJson.mapKeys correctKey).merged.pretty.toList =
        .ok (d.toJson.mapKeys correctKey).merged := by
  have hv : (d.toJson.mapKeys correctKey).Representable := hd.mapKeys correctKey
  have hrender := render_rereads hd.storable hdepth
  rwa [reread_reread hv, hv.reread] at hrender

theorem render_exceeds (hd : d.toJson.Storable)
    (hdepth : maxDepth < (d.toJson.mapKeys correctKey).depth) :
    ∃ before after, d.correctedText = before ++ after ∧
      firstTooDeep .outside maxDepth d.correctedText = some after ∧
      d.render = .error ⟨.tooDeep, ⟨1, bytes before + 1⟩⟩ := by
  obtain ⟨t, herror, hdeep⟩ := (ofText?_compactChars (hd.mapKeys correctKey)).2 hdepth
  rw [← d.correctedText_eq] at herror hdeep
  obtain ⟨before, c, after, hsplit, rfl, hc⟩ := firstTooDeep_suffix hdeep
  have hline : '\n' ∉ before := by
    have hall : '\n' ∉ d.correctedText := by
      rw [d.correctedText_eq]
      exact oneLine _ [] List.not_mem_nil
    rw [hsplit] at hall
    exact fun hmem => hall (List.mem_append_left _ hmem)
  have hbracket : c ≠ '\n' := by
    obtain rfl | rfl := hc <;> decide
  have hplace := position_behindNext after hline hbracket
  rw [← hsplit] at hplace
  refine ⟨before, c :: after, hsplit, hdeep, ?_⟩
  rw [Document.render, herror]
  exact congrArg (fun p => Except.error (RenderError.mk .tooDeep p)) hplace

/-- What is rendered is read back as the corrected value. -/
theorem read_of_render (hd : d.toJson.Representable) {text : String} (h : d.render = .ok text) :
    ofText? text.toList = .ok (d.toJson.mapKeys correctKey).merged := by
  by_cases hdepth : (d.toJson.mapKeys correctKey).depth ≤ maxDepth
  · obtain ⟨hrender, hread⟩ := render_fits hd hdepth
    cases h.symm.trans hrender
    exact hread
  · obtain ⟨_, _, _, _, herror⟩ := render_exceeds hd.storable (Nat.not_le.mp hdepth)
    cases h.symm.trans herror

end

/-- Rendering is a function of the tree alone: it fails only where the corrected value nests too
deep, and otherwise gives the corrected value as it is read, indented. Reading merges repeated keys
and reads numbers that are no integers again, which keeps them where they are written plainly. -/
theorem render_document (d : Document) (hd : d.toJson.Storable) :
    let v := d.toJson.mapKeys correctKey
    d.correctedText = v.compactChars ∧
    (v.depth ≤ 127 → ∃ text, d.render = .ok text ∧ text = v.reread.pretty ∧
      ofText? text.toList = .ok v.reread.reread) ∧
    (v.StorableWith Binary64.Plain → v.reread = v.merged ∧ v.reread.reread = v.merged) ∧
    (127 < v.depth → ∃ before after, d.correctedText = before ++ after ∧
      firstTooDeep .outside 127 d.correctedText = some after ∧
      d.render = .error ⟨.tooDeep, ⟨1, bytes before + 1⟩⟩) := by
  refine ⟨d.correctedText_eq, fun hdepth => ?_, fun hplain => ?_, render_exceeds hd⟩
  · obtain ⟨hrender, hread⟩ := render_rereads hd hdepth
    exact ⟨_, hrender, rfl, hread⟩
  · have hv : (d.toJson.mapKeys correctKey).Representable :=
      hplain.mono fun _ => Binary64.reread_of_plain
    exact ⟨hv.reread, reread_reread hv⟩

/-- The schema of a map value beside an object of its own, so that the correction repeats a key. -/
def tags (balance : Binary64) : Document where
  id := "tags"
  object := { properties := [("labels", {
    descriptor := { default := some (.float balance) }
    object := some .open
    mapValue := some (.typed .string) })] }

theorem tags_storable {P : Binary64 → Prop} {x : Binary64} (h : P x) :
    (tags x).toJson.StorableWith P := by
  show (Json.object [("id", .string "tags"), ("$schema", .string ""),
    ("properties", .object [("labels", .object [("default", .float x),
      ("additionalProperties", .bool true),
      ("additionalProperty", .object [("type", .string "string")])])]),
    ("additionalProperties", .bool false)]).StorableWith P
  simp [StorableWith.bool, StorableWith.string, StorableWith.float h]

def overdrawn : Binary64 :=
  ⟨true, Binary64.one + Binary64.one / 2, by decide +kernel⟩

theorem tags_render : (tags overdrawn).toJson.Storable ∧ ∃ text,
    (tags overdrawn).render = .ok text ∧
    ofText? text.toList = .ok (.object [("id", .string "tags"), ("$schema", .string ""),
      ("properties", .object [("labels", .object [("default", .float overdrawn),
        ("additionalProperties", .object [("type", .string "string")])])]),
      ("additionalProperties", .bool false)]) := by
  have hstorable : (tags overdrawn).toJson.Storable := tags_storable trivial
  have hplain : (tags overdrawn).toJson.StorableWith Binary64.Plain :=
    tags_storable (by decide +kernel)
  obtain ⟨-, hfits, hkept, -⟩ := render_document (tags overdrawn) hstorable
  obtain ⟨text, hrender, -, hread⟩ := hfits (by decide)
  rw [(hkept (hplain.mapKeys correctKey)).2] at hread
  exact ⟨hstorable, text, hrender, hread⟩

section

variable (x : Binary64)

def correctedTags : Json :=
  ((tags x).toJson.mapKeys correctKey).merged

theorem correctedTags_inj {x y : Binary64} (h : correctedTags x = correctedTags y) : x = y := by
  have hdefault : ∀ x, (((correctedTags x).get? "properties").bind (·.get? "labels")).bind
      (·.get? "default") = some (.float x) := fun _ => rfl
  have hfloat := hdefault x
  rw [h, hdefault y] at hfloat
  exact (Json.float.inj (Option.some.inj hfloat)).symm

theorem reread_tags : ((tags x).toJson.mapKeys correctKey).reread = correctedTags x.reread := by
  have hfloats : ∀ f, ((tags x).toJson.mapKeys correctKey).mapFloats f =
      (tags (f x)).toJson.mapKeys correctKey := fun _ => rfl
  rw [Json.reread, hfloats, correctedTags]

theorem reread_correctedTags : (correctedTags x).reread = correctedTags x.reread := by
  have hfloats : ∀ f, (correctedTags x).mapFloats f = correctedTags (f x) := fun _ => rfl
  rw [Json.reread, hfloats, correctedTags, merged_merged]

end

/-- Each text of this number is read as a smaller one. -/
def drifting : Binary64 :=
  ⟨false, 1087020510867819 * (Binary64.one / 2 ^ 80), by decide +kernel⟩

/-- Neither the text nor what is read of it keeps such a number. -/
theorem tags_drift : (tags drifting).toJson.Storable ∧
    ((tags drifting).toJson.mapKeys correctKey).depth ≤ 127 ∧
    ¬∃ text, (tags drifting).render = .ok text ∧
      (text = ((tags drifting).toJson.mapKeys correctKey).merged.pretty ∨
        ofText? text.toList = .ok ((tags drifting).toJson.mapKeys correctKey).merged) := by
  have hstorable : (tags drifting).toJson.Storable := tags_storable trivial
  have hdepth : ((tags drifting).toJson.mapKeys correctKey).depth ≤ 127 := by decide
  refine ⟨hstorable, hdepth, fun ⟨text, htext, hsame⟩ => ?_⟩
  obtain ⟨hrender, hread⟩ := render_rereads hstorable hdepth
  rw [reread_tags] at hrender hread
  rw [reread_correctedTags] at hread
  have htext' := Except.ok.inj (htext.symm.trans hrender)
  obtain hpretty | hvalue := hsame
  · have hmerged : (correctedTags drifting).Storable := (hstorable.mapKeys correctKey).merged
    rw [← htext', hpretty, ← correctedTags,
      ofText?_pretty hmerged ((depth_merged_le _).trans hdepth), reread_correctedTags] at hread
    have hne : drifting.reread ≠ drifting.reread.reread := by decide +kernel
    exact hne (correctedTags_inj (Except.ok.inj hread))
  · rw [htext', hread] at hvalue
    have hne : drifting.reread.reread ≠ drifting := by decide +kernel
    exact hne (correctedTags_inj (Except.ok.inj hvalue))

end Proofs.Rendering

end ModelSchema
