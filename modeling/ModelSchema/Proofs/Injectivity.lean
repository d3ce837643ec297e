import Mathlib.Data.List.Basic
import ModelSchema.Document.Members

namespace ModelSchema

def Keyed (keys : List String) (ms : List (String × Json)) : Prop :=
  ∀ m ∈ ms, m.1 ∈ keys

section

variable {ks ls : List String} {ms ns : List (String × Json)}

theorem keyed_singleton (key : String) (v : Json) : Keyed [key] [(key, v)] :=
  List.forall_mem_singleton.mpr List.mem_cons_self

theorem Keyed.append (hms : Keyed ks ms) (hns : Keyed ls ns) : Keyed (ks ++ ls) (ms ++ ns) :=
  List.forall_mem_append.mpr ⟨fun m hm => List.mem_append_left _ (hms m hm),
    fun m hm => List.mem_append_right _ (hns m hm)⟩

theorem Keyed.filter_left (hms : Keyed ks ms) (hns : Keyed ls ns) (hapart : ∀ k ∈ ks, k ∉ ls) :
    (ms ++ ns).filter (·.1 ∈ ks) = ms := by
  have hleft : ms.filter (·.1 ∈ ks) = ms :=
    List.filter_eq_self.mpr fun m hm => decide_eq_true (hms m hm)
  have hright : ns.filter (·.1 ∈ ks) = [] :=
    List.filter_eq_nil_iff.mpr fun m hm hk => hapart _ (of_decide_eq_true hk) (hns m hm)
  rw [List.filter_append, hleft, hright, List.append_nil]

end

variable {α β : Type}

/-- What is written is written under `keys`, and for no other value the same is written as for
`a`. -/
structure Tells (keys : List String) (write : α → List (String × Json)) (a : α) : Prop where
  keyed : ∀ b, Keyed keys (write b)
  told : ∀ b, write a = write b → a = b

namespace Tells

variable {ks ls : List String} {f : α → List (String × Json)} {g : β → List (String × Json)}
  {a : α} {b : β}

theorem both (hf : Tells ks f a) (hg : Tells ls g b) (hapart : ∀ k ∈ ks, k ∉ ls) :
    Tells (ks ++ ls) (fun p : α × β => f p.1 ++ g p.2) (a, b) where
  keyed p := (hf.keyed p.1).append (hg.keyed p.2)
  told p heq := by
    have hleft : f a = f p.1 := by
      rw [← (hf.keyed a).filter_left (hg.keyed b) hapart, heq,
        (hf.keyed p.1).filter_left (hg.keyed p.2) hapart]
    have hright : g b = g p.2 := by
      rw [hleft] at heq
      exact List.append_cancel_left heq
    exact Prod.ext (hf.told _ hleft) (hg.told _ hright)

theorem of_parts (parts : β → α) (b : β) (h : Tells ks f (parts b))
    (hparts : ∀ c, parts b = parts c → b = c) : Tells ks (fun b => f (parts b)) b where
  keyed b := h.keyed (parts b)
  told c heq := hparts c (h.told _ heq)

end Tells

theorem tells_optional (key : String) {write : α → Json} (hwrite : Function.Injective write)
    (a : Option α) : Tells [key] (optional key write) a where
  keyed b := by
    cases b with
    | none => exact List.forall_mem_nil _
    | some b => exact keyed_singleton _ _
  told b heq := by
    cases a <;> cases b <;> simp [optional] at heq ⊢
    exact hwrite heq

theorem keyed_nonempty (key : String) (write : List α → Json) (xs : List α) :
    Keyed [key] (nonempty key write xs) := by
  cases xs with
  | nil => exact List.forall_mem_nil _
  | cons x xs => exact keyed_singleton _ _

theorem tells_nonempty (key : String) {write : List α → Json} {xs : List α}
    (hwrite : ∀ ys, write xs = write ys → xs = ys) : Tells [key] (nonempty key write) xs where
  keyed := keyed_nonempty key write
  told ys heq := by
    cases xs <;> cases ys <;> simp [nonempty] at heq ⊢
    exact List.cons.inj (hwrite _ heq)

theorem tells_flagged (key : String) (a : Bool) : Tells [key] (flagged key) a where
  keyed b := by
    cases b with
    | false => exact List.forall_mem_nil _
    | true => exact keyed_singleton _ _
  told b heq := by cases a <;> cases b <;> simp [flagged] at heq ⊢

theorem tells_flag (key : String) (a : Bool) : Tells [key] (fun b => [(key, .bool b)]) a where
  keyed b := keyed_singleton _ _
  told b heq := by simpa using heq

theorem string_injective : Function.Injective Json.string :=
  fun _ _ => Json.string.inj

theorem array_injective : Function.Injective Json.array :=
  fun _ _ => Json.array.inj

theorem texts_injective : Function.Injective texts :=
  array_injective.comp string_injective.list_map

theorem InstanceType.keyword_injective : Function.Injective InstanceType.keyword := by
  intro a b heq
  cases a <;> cases b <;> simp [keyword] at heq ⊢

theorem Descriptor.tells (d : Descriptor) :
    Tells ["type", "description", "default", "enum"] Descriptor.members d := by
  refine Tells.of_parts (fun d : Descriptor =>
    (((d.instanceType, d.description), d.default), d.enumValues)) d (((Tells.both
      (tells_optional _ (string_injective.comp InstanceType.keyword_injective) _)
      (tells_optional _ string_injective _) (by decide)).both
      (tells_optional _ Function.injective_id _) (by decide)).both
      (tells_optional _ array_injective _) (by decide)) ?_
  rintro ⟨⟩ heq
  cases d
  simp_all

theorem JavaDescriptor.tells (j : JavaDescriptor) :
    Tells ["javaType", "existingJavaType", "javaInterfaces", "javaOmitEmpty"]
      JavaDescriptor.members j := by
  refine Tells.of_parts (fun j : JavaDescriptor =>
    (((j.javaType, j.existingJavaType), j.interfaces), j.omitEmpty)) j (((Tells.both
      (tells_optional _ string_injective _) (tells_optional _ string_injective _) (by decide)).both
      (tells_nonempty _ fun _ heq => texts_injective heq) (by decide)).both
      (tells_flagged _ _) (by decide)) ?_
  rintro ⟨⟩ heq
  cases j
  simp_all

@[elab_as_elim]
theorem Property.induction {P : Property → Prop}
    (step : ∀ p : Property, (∀ o, p.object = some o → ∀ q ∈ o.properties, P q.2) →
      (∀ q, p.items = some q → P q) → (∀ q, p.mapValue = some q → P q) → P p)
    (p : Property) : P p :=
  @Property.rec P (fun o => ∀ d, o = some d → ∀ q ∈ d.properties, P q.2)
    (fun p => ∀ q, p = some q → P q) (fun d => ∀ q ∈ d.properties, P q.2)
    (fun ps => ∀ q ∈ ps, P q.2) (fun q => P q.2)
    (fun _ _ _ _ _ _ ho hi hm => step _ ho hi hm)
    (by simp) (fun _ h _ hd => Option.some.inj hd ▸ h)
    (by simp) (fun _ h _ hq => Option.some.inj hq ▸ h)
    (fun _ _ _ h => h)
    (by simp) (fun _ _ hq hqs => List.forall_mem_cons.mpr ⟨hq, hqs⟩)
    (fun _ _ h => h) p

def Property.Told (p : Property) : Prop :=
  ∀ q : Property, p.toJson = q.toJson → p = q

theorem tells_propertyMember (key : String) {a : Option Property} (h : ∀ p, a = some p → p.Told) :
    Tells [key] (propertyMember key) a where
  keyed b := by
    cases b with
    | none => exact List.forall_mem_nil _
    | some b => exact keyed_singleton _ _
  told b heq := by
    cases a <;> cases b <;> simp [propertyMember] at heq ⊢
    exact h _ rfl _ (congrArg Json.object heq)

theorem propertyMembers_told {ps : List (String × Property)} (h : ∀ p ∈ ps, p.2.Told)
    (qs : List (String × Property)) (heq : propertyMembers ps = propertyMembers qs) : ps = qs := by
  induction ps generalizing qs with
  | nil =>
    cases qs with
    | nil => rfl
    | cons q qs => cases heq
  | cons p ps ih =>
    obtain ⟨hp, hps⟩ := List.forall_mem_cons.mp h
    cases qs with
    | nil => cases heq
    | cons q qs =>
      obtain ⟨hhead, htail⟩ := List.cons.inj heq
      obtain ⟨hname, hvalue⟩ := Prod.mk.inj hhead
      exact congrArg₂ _ (Prod.ext hname (hp _ hvalue)) (ih hps qs htail)

theorem tells_object {o : ObjectDescriptor} (h : ∀ p ∈ o.properties, p.2.Told) :
    Tells ["properties", "required", "additionalProperties"]
      (fun o => objectMembers (some o)) o := by
  have hproperties : Tells ["properties"] (fun ps => nonempty "properties" .object
      (propertyMembers ps)) o.properties :=
    (tells_nonempty _ fun _ heq => Json.object.inj heq).of_parts propertyMembers o.properties
      (propertyMembers_told h)
  refine Tells.of_parts (fun o : ObjectDescriptor =>
    ((o.properties, o.required), o.additionalProperties)) o ((hproperties.both
      (tells_nonempty _ fun _ heq => texts_injective heq) (by decide)).both
      (tells_flag _ _) (by decide)) ?_
  rintro ⟨⟩ heq
  cases o
  simp_all

theorem tells_objectMembers {a : Option ObjectDescriptor}
    (h : ∀ o, a = some o → ∀ p ∈ o.properties, p.2.Told) :
    Tells ["properties", "required", "additionalProperties"] objectMembers a where
  keyed b := by
    cases b with
    | none => exact List.forall_mem_nil _
    | some o =>
      exact ((keyed_nonempty _ _ _).append (keyed_nonempty _ _ _)).append (keyed_singleton _ _)
  told b heq := by
    -- Of an object the flag is always written.
    have hflag : ∀ o, objectMembers (some o) ≠ [] := fun o hnil =>
      List.append_ne_nil_of_right_ne_nil _ (List.cons_ne_nil _ _) hnil
    cases a with
    | none =>
      cases b with
      | none => rfl
      | some o => exact absurd heq.symm (hflag o)
    | some o =>
      cases b with
      | none => exact absurd heq (hflag o)
      | some o' => exact congrArg some ((tells_object (h o rfl)).told o' heq)

theorem Property.members_eq (p : Property) :
    p.members = p.descriptor.members ++ optional "$ref" .string p.reference ++
      objectMembers p.object ++ propertyMember "items" p.items ++
      propertyMember mapValueKey p.mapValue ++ p.java.members := by
  cases p
  rw [Property.members]

theorem Property.told (p : Property) : p.Told := by
  induction p using Property.induction with
  | step p hobject hitems hmapValue =>
    intro q heq
    have hparts := Tells.of_parts (fun p : Property =>
      (((((p.descriptor, p.reference), p.object), p.items), p.mapValue), p.java)) p
      ((((((p.descriptor.tells.both (tells_optional "$ref" string_injective p.reference)
        (by decide)).both (tells_objectMembers hobject) (by decide)).both
        (tells_propertyMember "items" hitems) (by decide)).both
        (tells_propertyMember mapValueKey hmapValue) (by decide)).both
        p.java.tells (by decide))) (by
          rintro ⟨⟩ heq
          cases p
          simp_all)
    refine hparts.told q ?_
    rw [← p.members_eq, ← q.members_eq]
    exact Json.object.inj heq

theorem tells_heading (id dialect : String) : Tells ["id", "$schema"]
    (fun h : String × String => [("id", .string h.1), ("$schema", .string h.2)]) (id, dialect) where
  keyed h := by simp [Keyed]
  told h heq := by simpa [Prod.ext_iff] using heq

theorem Document.told (d e : Document) (heq : d.toJson = e.toJson) : d = e := by
  have hproperties : Function.Injective propertyMembers :=
    fun _ => propertyMembers_told fun p _ => p.2.told
  have hdefinitions : Tells ["definitions"] (fun ps => nonempty "definitions" .object
      (propertyMembers ps)) d.definitions :=
    (tells_nonempty _ fun _ heq => Json.object.inj heq).of_parts propertyMembers d.definitions
      fun _ heq => hproperties heq
  have hresources : Tells ["resources"]
      (optional "resources" fun r => .object (propertyMembers r)) d.resources :=
    tells_optional _ (fun _ _ heq => hproperties (Json.object.inj heq)) _
  have hparts := Tells.of_parts (fun d : Document =>
    (((((d.id, d.dialect), d.definitions), d.descriptor), d.object), d.resources)) d
    (((((tells_heading _ _).both hdefinitions (by decide)).both d.descriptor.tells
      (by decide)).both (tells_object fun p _ => p.2.told) (by decide)).both hresources
      (by decide)) (by
        rintro ⟨⟩ heq
        cases d
        simp_all)
  exact hparts.told e (Json.object.inj heq)

namespace Proofs.Injectivity

/-- Different documents have different values, and so have different properties. The order of
members counts on both sides. -/
theorem toJson_eq_iff : (∀ d e : Document, d.toJson = e.toJson ↔ d = e) ∧
    ∀ p q : Property, p.toJson = q.toJson ↔ p = q :=
  ⟨fun d e => ⟨d.told e, congrArg Document.toJson⟩,
    fun p q => ⟨p.told q, congrArg Property.toJson⟩⟩

end Proofs.Injectivity

end ModelSchema
