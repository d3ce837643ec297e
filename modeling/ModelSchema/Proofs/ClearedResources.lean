import ModelSchema.Proofs.PropertyNames

namespace ModelSchema

namespace Json

/-- What is written comes in front of the rest, whatever the rest is. -/
def InFront (write : List Char → List Char) : Prop :=
  ∃ front, ∀ rest, write rest = front ++ rest

theorem inFront_append (front : List Char) : InFront (front ++ ·) :=
  ⟨front, fun _ => rfl⟩

theorem InFront.comp {write write' : List Char → List Char} (h : InFront write)
    (h' : InFront write') : InFront (fun rest => write (write' rest)) := by
  obtain ⟨front, hfront⟩ := h
  obtain ⟨front', hfront'⟩ := h'
  refine ⟨front ++ front', fun rest => ?_⟩
  dsimp only
  rw [hfront, hfront', List.append_assoc]

theorem InFront.cons {write : List Char → List Char} (c : Char) (h : InFront write) :
    InFront (fun rest => c :: write rest) :=
  (inFront_append [c]).comp h

theorem inFront_quoted (s : String) : InFront (quoted s) := by
  have hescaped : InFront (escaped s.toList) := by
    induction s.toList with
    | nil => exact inFront_append []
    | cons c cs ih => exact (inFront_append (escape c)).comp ih
  exact .cons '\"' (hescaped.comp (inFront_append ['\"']))

theorem inFront_member (k : String) {v : Json} (h : InFront (compactOnto v)) :
    InFront (fun rest => quoted k (':' :: compactOnto v rest)) :=
  (inFront_quoted k).comp (.cons ':' h)

theorem inFront_compactItems {xs : List Json} (h : ∀ x ∈ xs, InFront (compactOnto x)) :
    InFront (compactItems xs) := by
  induction xs with
  | nil => exact inFront_append [']']
  | cons x xs ih =>
    obtain ⟨hx, hxs⟩ := List.forall_mem_cons.mp h
    exact .cons ',' (hx.comp (ih hxs))

theorem inFront_compactMembers {ms : List (String × Json)}
    (h : ∀ m ∈ ms, InFront (compactOnto m.2)) : InFront (compactMembers ms) := by
  induction ms with
  | nil => exact inFront_append ['\x7d']
  | cons m ms ih =>
    obtain ⟨hm, hms⟩ := List.forall_mem_cons.mp h
    exact .cons ',' ((inFront_member m.1 hm).comp (ih hms))

theorem inFront_compactOnto (v : Json) : InFront (compactOnto v) := by
  induction v using Json.induction with
  | null => exact inFront_append ['n', 'u', 'l', 'l']
  | bool b =>
    cases b with
    | false => exact inFront_append ['f', 'a', 'l', 's', 'e']
    | true => exact inFront_append ['t', 'r', 'u', 'e']
  | int n => exact inFront_append (intText n)
  | float x => exact inFront_append x.text
  | string s => exact inFront_quoted s
  | array xs ih =>
    cases xs with
    | nil => exact inFront_append ['[', ']']
    | cons x xs =>
      obtain ⟨hx, hxs⟩ := List.forall_mem_cons.mp ih
      exact .cons '[' (hx.comp (inFront_compactItems hxs))
  | object ms ih =>
    cases ms with
    | nil => exact inFront_append ['\x7b', '\x7d']
    | cons m ms =>
      obtain ⟨hm, hms⟩ := List.forall_mem_cons.mp ih
      exact .cons '\x7b' ((inFront_member m.1 hm).comp (inFront_compactMembers hms))

theorem compactChars_object_append (m : String × Json) (ms : List (String × Json)) :
    ∃ front, ∀ ns, (object (m :: ms ++ ns)).compactChars = front ++ compactMembers ns [] := by
  have hlater : ∃ front, ∀ ns, compactMembers (ms ++ ns) [] = front ++ compactMembers ns [] := by
    induction ms with
    | nil => exact ⟨[], fun _ => rfl⟩
    | cons m ms ih =>
      obtain ⟨front, hfront⟩ := ih
      obtain ⟨front', hfront'⟩ := (inFront_member m.1 (inFront_compactOnto m.2)).cons ','
      refine ⟨front' ++ front, fun ns => ?_⟩
      rw [List.append_assoc, ← hfront, ← hfront']
      rfl
  obtain ⟨front, hfront⟩ := hlater
  obtain ⟨front', hfront'⟩ := (inFront_member m.1 (inFront_compactOnto m.2)).cons '\x7b'
  refine ⟨front' ++ front, fun ns => ?_⟩
  rw [List.append_assoc, ← hfront, ← hfront']
  rfl

theorem firstTooDeep_append_of_some {p : Place} {room : Nat} {l t : List Char}
    (h : firstTooDeep p room l = some t) (rest : List Char) :
    firstTooDeep p room (l ++ rest) = some (t ++ rest) := by
  fun_induction firstTooDeep p room l with
  | case7 c cs hquote hopen =>
    cases h
    simp [firstTooDeep, hquote, hopen]
  | _ => simp_all [firstTooDeep]

theorem firstTooDeep_of_closed {p : Place} {room : Nat} {l t : List Char}
    (h : firstTooDeep p room (l ++ ['\x7d']) = some t) : ∃ t', firstTooDeep p room l = some t' := by
  fun_induction firstTooDeep p room l with
  | case1 p room => cases p <;> cases h
  | _ => simp_all [firstTooDeep]

theorem firstTooDeep_before {room : Nat} {front t rest before after : List Char}
    (h : firstTooDeep .outside room front = some t)
    (hafter : firstTooDeep .outside room (front ++ rest) = some after)
    (hsplit : front ++ rest = before ++ after) : front = before ++ t := by
  rw [firstTooDeep_append_of_some h] at hafter
  rw [← Option.some.inj hafter, ← List.append_assoc] at hsplit
  exact List.append_cancel_right hsplit

theorem depth_object_le_iff {ms : List (String × Json)} {n : Nat} :
    (object ms).depth ≤ n + 1 ↔ ∀ m ∈ ms, m.2.depth ≤ n := by
  rw [depth, Nat.succ_le_succ_iff, membersDepth_le_iff]

theorem depth_mapKeys (f : String → String) (v : Json) : (v.mapKeys f).depth = v.depth := by
  induction v using Json.induction with
  | null | bool _ | int _ | float _ | string _ => rfl
  | array xs ih =>
    have hitems : itemsDepth (mapItemKeys f xs) = itemsDepth xs := by
      induction xs with
      | nil => rfl
      | cons x xs hxs =>
        obtain ⟨hx, hlater⟩ := List.forall_mem_cons.mp ih
        rw [mapItemKeys, itemsDepth, itemsDepth, hx, hxs hlater]
    rw [mapKeys, depth, depth, hitems]
  | object ms ih =>
    have hmembers : membersDepth (mapMemberKeys f ms) = membersDepth ms := by
      induction ms with
      | nil => rfl
      | cons m ms hms =>
        obtain ⟨hm, hlater⟩ := List.forall_mem_cons.mp ih
        rw [mapMemberKeys, membersDepth, membersDepth, hm, hms hlater]
    rw [mapKeys, depth, depth, hmembers]

theorem corrected_object_concat {key : String} {ms : List (String × Json)} (h : Without key ms)
    (hkey : correctKey key = key) : ∃ ns, (object ms).corrected = .object ns ∧
      key ∉ Entries.keys ns ∧
      ∀ v, (object (ms ++ [(key, v)])).corrected = .object (ns ++ [(key, v.corrected)]) := by
  have hnot : key ∉ Entries.keys (Entries.ofList
      (ms.map fun m => (correctKey m.1, m.2.corrected))) := by
    rw [Entries.keys_ofList, List.mem_eraseDups, Entries.keys, List.map_map, List.mem_map]
    rintro ⟨m, hm, heq⟩
    exact h m hm heq
  refine ⟨_, corrected_object ms, hnot, fun v => ?_⟩
  rw [corrected_object, List.map_append, List.map_singleton, Entries.ofList_append_singleton, hkey,
    Entries.insert_of_not_mem _ hnot]

end Json

namespace Document

open Json

theorem mem_nonempty {α : Type} (key : String) (write : List α → Json) {xs : List α} (h : xs ≠ []) :
    (key, write xs) ∈ nonempty key write xs := by
  cases xs with
  | nil => exact absurd rfl h
  | cons x xs => exact List.mem_singleton_self _

variable (d : Document)

def ownMembers : List (String × Json) :=
  [("id", .string d.id), ("$schema", .string d.dialect)] ++
    nonempty "definitions" .object (propertyMembers d.definitions) ++
    d.descriptor.members ++ objectMembers (some d.object)

def resourceMembers : List (String × Json) :=
  optional "resources" (fun r => .object (propertyMembers r)) d.resources

theorem toJson_eq : d.toJson = .object (d.ownMembers ++ d.resourceMembers) :=
  rfl

theorem toJson_clearResources : d.clearResources.toJson = .object d.ownMembers :=
  congrArg Json.object (List.append_nil _)

theorem ownMembers_without : Without "resources" d.ownMembers :=
  ((((without_singleton (by decide) _).append (without_singleton (by decide) _)).append
    (without_nonempty (by decide) _ _)).append (d.descriptor.members_without (by decide))).append
    (((without_nonempty (by decide) _ _).append (without_nonempty (by decide) _ _)).append
      (without_singleton (by decide) _))

/-- Every resource is one of the definitions. -/
def Repeats : Prop :=
  ∀ r, d.resources = some r → ∀ q ∈ r, ∃ name, (name, q.2) ∈ d.definitions

variable {d}

theorem depth_clearResources_le : d.clearResources.toJson.depth ≤ d.toJson.depth := by
  rw [toJson_clearResources, toJson_eq, depth, depth]
  refine Nat.succ_le_succ (membersDepth_le_iff.mpr fun m hm => ?_)
  exact membersDepth_le_iff.mp (Nat.le_refl _) m (List.mem_append_left _ hm)

theorem Repeats.depth_le (hd : d.Repeats) {n : Nat} (h : d.clearResources.toJson.depth ≤ n + 2) :
    d.toJson.depth ≤ n + 2 := by
  rw [toJson_clearResources, depth_object_le_iff] at h
  rw [toJson_eq, depth_object_le_iff, List.forall_mem_append]
  refine ⟨h, ?_⟩
  unfold resourceMembers
  cases hr : d.resources with
  | none => exact List.forall_mem_nil _
  | some r =>
    refine List.forall_mem_singleton.mpr (depth_object_le_iff.mpr fun m hm => ?_)
    rw [propertyMembers_eq_map] at hm
    obtain ⟨q, hq, rfl⟩ := List.mem_map.mp hm
    obtain ⟨name, hname⟩ := hd r hr q hq
    have hmember : (name, q.2.toJson) ∈ propertyMembers d.definitions := by
      rw [propertyMembers_eq_map]
      exact List.mem_map_of_mem hname
    have hdefinitions :
        ("definitions", .object (propertyMembers d.definitions)) ∈ d.ownMembers := by
      have hmem := mem_nonempty "definitions" Json.object (List.ne_nil_of_mem hmember)
      simp only [ownMembers, List.mem_append]
      exact Or.inl (Or.inl (Or.inr hmem))
    exact depth_object_le_iff.mp (h _ hdefinitions) (name, q.2.toJson) hmember

theorem correctedText_front (d : Document) : ∃ front rest, d.correctedText = front ++ rest ∧
    d.clearResources.correctedText = front ++ ['\x7d'] := by
  obtain ⟨m, ms, hown⟩ : ∃ m ms, mapMemberKeys correctKey d.ownMembers = m :: ms := ⟨_, _, rfl⟩
  obtain ⟨front, hfront⟩ := compactChars_object_append m ms
  refine ⟨front, compactMembers (mapMemberKeys correctKey d.resourceMembers) [], ?_, ?_⟩
  · rw [correctedText_eq, toJson_eq, mapKeys, mapMemberKeys_eq_map, List.map_append,
      ← mapMemberKeys_eq_map, ← mapMemberKeys_eq_map, hown, hfront]
  · have hnil := hfront []
    rw [List.append_nil] at hnil
    rw [correctedText_eq, toJson_clearResources, mapKeys, hown, hnil]
    rfl

theorem render_of_exceeds (hd : d.toJson.Representable)
    (hcleared : d.clearResources.toJson.Representable)
    (hdepth : maxDepth < d.clearResources.toJson.depth) : d.render = d.clearResources.render := by
  have hdeeper : maxDepth < d.toJson.depth := hdepth.trans_le depth_clearResources_le
  rw [← depth_mapKeys correctKey] at hdepth hdeeper
  obtain ⟨before, after, hsplit, hafter, hrender⟩ := Proofs.Rendering.render_exceeds hd.storable hdeeper
  obtain ⟨before', after', hsplit', hafter', hrender'⟩ :=
    Proofs.Rendering.render_exceeds hcleared.storable hdepth
  obtain ⟨front, rest, htext, htext'⟩ := d.correctedText_front
  rw [htext] at hsplit hafter
  rw [htext'] at hsplit' hafter'
  obtain ⟨t, ht⟩ := firstTooDeep_of_closed hafter'
  have hbefore : before ++ t = before' ++ t :=
    (firstTooDeep_before ht hafter hsplit).symm.trans (firstTooDeep_before ht hafter' hsplit')
  rw [hrender, hrender', List.append_cancel_right hbefore]

theorem corrected_clearResources (d : Document) : ∃ ms, d.toJson.corrected = .object ms ∧
    d.clearResources.toJson.corrected = .object (ms.filter (·.1 ≠ "resources")) := by
  obtain ⟨ns, hns, hnot, hlast⟩ := corrected_object_concat d.ownMembers_without (by decide)
  have hkeep : ns.filter (·.1 ≠ "resources") = ns :=
    List.filter_eq_self.mpr fun m hm =>
      decide_eq_true fun heq => hnot (heq ▸ List.mem_map_of_mem hm)
  rw [toJson_eq, toJson_clearResources, hns]
  unfold resourceMembers
  cases d.resources with
  | none => exact ⟨ns, by rw [optional, List.append_nil, hns], congrArg _ hkeep.symm⟩
  | some r =>
    refine ⟨_, hlast _, congrArg Json.object ?_⟩
    rw [List.filter_append, hkeep]
    simp

end Document

namespace Proofs.ClearedResources

open Json Definitions Readable Reach

variable {g : TypeGraph} {s : Settings}

theorem generated_repeats {n : Nat} {root : TypeRef} {d : Document}
    (h : (g.generateWithin s n root).result = .ok d) : d.Repeats := by
  obtain ⟨o, p, es, a, hg⟩ := generateWithin_ok h
  intro r hr q hq
  rw [hg.document] at hr ⊢
  cases hr
  obtain ⟨e, he, hqe⟩ := hg.assembles.resources q hq
  exact ⟨e.name, hqe ▸ hg.assembles.definitions.mem_iff.mpr (List.mem_map_of_mem he)⟩

/-- Whatever the bound, a generated document is rendered without its resources if and only if it is
rendered with them. What is read of the texts differs in that one member of the root, and where
rendering fails it fails with the same error. -/
theorem render_clearResources {n : Nat} {root : TypeRef} {d : Document}
    (h : (g.generateWithin s n root).result = .ok d) :
    (∀ text, d.render = .ok text → ∃ text' ms, d.clearResources.render = .ok text' ∧
      ofText? text.toList = .ok (.object ms) ∧
      ofText? text'.toList = .ok (.object (ms.filter (·.1 ≠ "resources")))) ∧
    ∀ e, d.render = .error e → d.clearResources.render = .error e := by
  have hrepeats := generated_repeats h
  obtain ⟨hd, -⟩ := generated_readable g s h
  have hcleared : d.clearResources.toJson.Representable := by
    obtain ⟨hdefinitions, hdescriptor, hobject, -⟩ := Document.representable_iff.mp hd
    exact Document.representable_iff.mpr ⟨hdefinitions, hdescriptor, hobject, by rintro r ⟨⟩⟩
  by_cases hdepth : d.clearResources.toJson.depth ≤ maxDepth
  · have hdepth' : d.toJson.depth ≤ maxDepth := hrepeats.depth_le hdepth
    rw [← depth_mapKeys correctKey] at hdepth hdepth'
    obtain ⟨hrender, hread⟩ := Rendering.render_fits hd hdepth'
    obtain ⟨hrender', hread'⟩ := Rendering.render_fits hcleared hdepth
    obtain ⟨ms, hms, hms'⟩ := d.corrected_clearResources
    refine ⟨fun text htext => ?_, fun e he => absurd (hrender.symm.trans he) (by simp)⟩
    cases hrender.symm.trans htext
    exact ⟨_, ms, hrender', hread.trans (congrArg _ hms), hread'.trans (congrArg _ hms')⟩
  · have hsame := Document.render_of_exceeds hd hcleared (Nat.not_le.mp hdepth)
    rw [← depth_mapKeys correctKey] at hdepth
    obtain ⟨_, _, _, _, herror⟩ := Rendering.render_exceeds hcleared.storable (Nat.not_le.mp hdepth)
    rw [hsame]
    exact ⟨fun text htext => absurd (herror.symm.trans htext) (by simp), fun e he => he⟩

def tower : TypeGraph where
  info
    | .declared "Tower" => ⟨"Tower", "shop", none, .struct [
        { name := "floors", type := TypeRef.list^[130] (.declared "text") }]⟩
    | .list e => ⟨"", "", none, .seq e⟩
    | _ => ⟨"", "", none, .any⟩
  refs := [.declared "Tower", .declared "text"]

set_option maxRecDepth 10000 in
theorem tower_exceeds : ∃ d, (tower.generateWithin {} 200 (.declared "Tower")).result = .ok d ∧
    maxDepth < (d.toJson.mapKeys correctKey).depth :=
  ⟨_, rfl, by decide⟩

theorem shop_and_tower_clearResources : (∃ d text text' ms,
    (shop.generate shopSettings (.declared "Order")).result = .ok d ∧ d.render = .ok text ∧
      d.clearResources.render = .ok text' ∧ ofText? text.toList = .ok (.object ms) ∧
      ofText? text'.toList = .ok (.object (ms.filter (·.1 ≠ "resources"))) ∧
      Entries.keys ms = ["id", "$schema", "definitions", "type", "properties", "required",
        "additionalProperties", "resources"]) ∧
    ∃ d e, (tower.generateWithin {} 200 (.declared "Tower")).result = .ok d ∧
      d.render = .error e ∧ d.clearResources.render = .error e := by
  constructor
  · obtain ⟨d, ns, hd, hdepth, hcorrected, hkeys⟩ : ∃ d ns,
        (shop.generate shopSettings (.declared "Order")).result = .ok d ∧
          (d.toJson.mapKeys correctKey).depth ≤ maxDepth ∧ d.toJson.corrected = .object ns ∧
          Entries.keys ns = ["id", "$schema", "definitions", "type", "properties", "required",
            "additionalProperties", "resources"] :=
      ⟨_, _, rfl, by decide, rfl, by decide⟩
    obtain ⟨hreadable, -⟩ := generated_readable shop shopSettings hd
    obtain ⟨hrender, hread⟩ := Rendering.render_fits hreadable hdepth
    obtain ⟨text', ms, hrender', hms, hms'⟩ := (render_clearResources hd).1 _ hrender
    cases hms.symm.trans (hread.trans (congrArg _ hcorrected))
    exact ⟨d, _, text', ns, hd, hrender, hrender', hms, hms', hkeys⟩
  · obtain ⟨d, hd, hdepth⟩ := tower_exceeds
    obtain ⟨hreadable, -⟩ := generated_readable tower {} hd
    obtain ⟨_, _, _, _, herror⟩ := Rendering.render_exceeds hreadable.storable hdepth
    exact ⟨d, _, hd, herror, (render_clearResources hd).2 _ herror⟩

end Proofs.ClearedResources

end ModelSchema
