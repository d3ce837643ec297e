import ModelSchema.Api.Shape
import ModelSchema.Proofs.Definitions

namespace ModelSchema

/-- Whether a value is of that type. Arrays are judged by their items as well. -/
def InstanceType.admits : InstanceType → Json → Bool
  | .boolean, .bool _ => true
  | .object, .object _ => true
  | .number, .int _ => true
  | .number, .float _ => true
  | .string, .string _ => true
  | .integer, .int _ => true
  | _, _ => false

/-- Without its list of texts if it is the version or the kind of an object, which the generator
pins for its own use. -/
def Property.unpinned (p : Property) (key : String) : Property :=
  if key = "apiVersion" ∨ key = "kind" then
    { p with descriptor := { p.descriptor with enumValues := none } }
  else p

/-- The definitions that references are followed into. -/
structure Scope where
  names : List String
  object? : String → Option ObjectDescriptor

mutual

/-- A JSON value is what a property says. Of what lies behind a reference out of the scope it is
only known that it is an object. -/
inductive Fits (f : Scope) : Property → Json → Prop where
  | plain {p : Property} {t : InstanceType} {j : Json} (hr : p.reference = none)
      (ht : p.descriptor.instanceType = some t) (hj : t.admits j = true)
      (hlisted : ∀ s values, j = .string s → p.descriptor.enumValues = some values → j ∈ values) :
      Fits f p j
  | array {p q : Property} {items : List Json} (hr : p.reference = none)
      (ht : p.descriptor.instanceType = some .array) (hq : p.items = some q)
      (h : ∀ j ∈ items, Fits f q j) : Fits f p (.array items)
  | outside {p : Property} {name : String} {members : List (String × Json)}
      (hr : p.reference = some (Property.definitionsPath ++ name)) (hn : name ∉ f.names) :
      Fits f p (.object members)
  | defined {p : Property} {name : String} {o : ObjectDescriptor} {members : List (String × Json)}
      (hr : p.reference = some (Property.definitionsPath ++ name)) (ho : f.object? name = some o)
      (h : Holds f o members) : Fits f p (.object members)

/-- The members of an object are properties of `o` and fit them, and none that is required is
missing. -/
inductive Holds (f : Scope) : ObjectDescriptor → List (String × Json) → Prop where
  | intro {o : ObjectDescriptor} {members : List (String × Json)}
      (known : ∀ m ∈ members, m.1 ∈ Entries.keys o.properties)
      (complete : ∀ key ∈ o.required, key ∈ Entries.keys members)
      (fit : ∀ m ∈ members, ∀ q, Entries.get? o.properties m.1 = some q →
        Fits f (q.unpinned m.1) m.2) : Holds f o members

end

def Property.isPlain (p : Property) (t : InstanceType) : Bool :=
  p.reference.isNone && p.descriptor.instanceType = some t

def Property.lists (p : Property) (text : String) : Bool :=
  (p.descriptor.enumValues.map fun values => values.any (·.text? = some text)).getD true

namespace Api

def Fields.always : Fields → List String
  | .nil => []
  | .own l _ rest => if l.presence = .omittable then rest.always else l.name :: rest.always
  | .spread _ fs rest => fs.always ++ rest.always

section

variable (f : Scope) (name : TypeRef → String)

mutual

/-- Whether all values of a shape fit a property, or all that are not empty if `present`. The
function `name` tells under which name a record is defined. -/
def Shape.suits : Shape → Bool → Property → Bool
  | .text, _, p => p.isPlain .string && p.descriptor.enumValues.isNone
  | .flag, _, p => p.isPlain .boolean
  | .int64, _, p => p.isPlain .integer
  | .moment, _, p => p.isPlain .string && p.descriptor.enumValues.isNone
  | .raw, _, _ => false
  | .choice _ first others, _, p => p.isPlain .string && (first :: others).all p.lists
  | .list e, _, p => p.isPlain .array && (p.items.map (e.suits false)).getD false
  | .table _, _, p => p.isPlain .object
  | .optional e, present, p => present && e.suits false p
  | .record l _ fs, _, p =>
    p.reference = some (Property.definitionsPath ++ name l.type) &&
      (!f.names.contains (name l.type) ||
        ((f.object? (name l.type)).map fun o =>
          o.required.all fs.always.contains && fs.suit o).getD false)

def Fields.suit : Fields → ObjectDescriptor → Bool
  | .nil, _ => true
  | .own l s rest, o =>
    ((Entries.get? o.properties l.name).map fun q =>
      s.suits (l.presence = .omittable) (q.unpinned l.name)).getD false && rest.suit o
  | .spread _ fs rest, o => fs.suit o && rest.suit o

end

end

end Api

structure Scope.Within (f k : Scope) : Prop where
  names : ∀ name ∈ k.names, name ∈ f.names
  objects : ∀ name o, f.object? name = some o → k.object? name = some o

namespace Proofs.Fitting

open Api

variable {f k : Scope} {name : TypeRef → String}

theorem fits_plain {p : Property} {t : InstanceType} {j : Json} (h : p.isPlain t = true)
    (hj : t.admits j = true)
    (hlisted : ∀ s values, j = .string s → p.descriptor.enumValues = some values → j ∈ values) :
    Fits k p j := by
  simp only [Property.isPlain, Bool.and_eq_true, Option.isNone_iff_eq_none, decide_eq_true_eq] at h
  exact .plain h.1 h.2 hj hlisted

theorem mem_of_lists {p : Property} {text : String} {values : List Json}
    (h : p.lists text = true) (hv : p.descriptor.enumValues = some values) :
    .string text ∈ values := by
  simp only [Property.lists, hv, Option.map_some, Option.getD_some, List.any_eq_true,
    decide_eq_true_eq] at h
  obtain ⟨j, hj, htext⟩ := h
  cases j with
  | string s =>
    cases htext
    exact hj
  | null | bool _ | int _ | float _ | array _ | object _ => cases htext

theorem always_written : ∀ (fs : Fields) (vs : fs.Values),
    ∀ key ∈ fs.always, key ∈ Entries.keys (fs.encode vs)
  | .nil, _ => by simp [Fields.always]
  | .own l s rest, (v, vs) => by
    intro key hkey
    have ih := always_written rest vs key
    by_cases hl : l.presence = .omittable
    · simp only [Fields.always, hl, if_true] at hkey
      by_cases he : s.isEmpty v = true
      · rw [Fields.encode, if_pos ⟨hl, he⟩]
        exact ih hkey
      · rw [Fields.encode, if_neg fun h => he h.2]
        exact List.mem_cons_of_mem _ (ih hkey)
    · simp only [Fields.always, hl, if_false] at hkey
      rw [Fields.encode, if_neg fun h => hl h.1]
      obtain rfl | hkey := List.mem_cons.mp hkey
      · exact List.mem_cons_self
      · exact List.mem_cons_of_mem _ (ih hkey)
  | .spread _ fs rest, (v, vs) => by
    intro key hkey
    simp only [Fields.always, List.mem_append] at hkey
    simp only [Fields.encode, Entries.keys, List.map_append, List.mem_append]
    obtain hkey | hkey := hkey
    · exact Or.inl (always_written fs v key hkey)
    · exact Or.inr (always_written rest vs key hkey)

theorem holds_of_fit {o : ObjectDescriptor} {fs : Fields} {vs : fs.Values}
    (hrequired : o.required.all fs.always.contains = true)
    (hfit : ∀ m ∈ fs.encode vs, m.1 ∈ Entries.keys o.properties ∧
      ∀ q, Entries.get? o.properties m.1 = some q → Fits k (q.unpinned m.1) m.2) :
    Holds k o (fs.encode vs) := by
  refine .intro (fun m hm => (hfit m hm).1) (fun key hkey => ?_) fun m hm => (hfit m hm).2
  have halways := List.all_eq_true.mp hrequired key hkey
  exact always_written fs vs key (by simpa using halways)

mutual

theorem shape_fits (hk : f.Within k) : ∀ (s : Shape) {present : Bool} {p : Property},
    s.suits f name present p = true → ∀ v : s.Value, (present = true → s.isEmpty v = false) →
      Fits k p (s.encode v)
  | .text, present, p, h, (v : String), _ => by
    simp only [Shape.suits, Bool.and_eq_true, Option.isNone_iff_eq_none] at h
    exact fits_plain h.1 rfl fun _ values _ hv => by simp [h.2] at hv
  | .flag, present, p, h, (v : Bool), _ => by
    simp only [Shape.suits] at h
    exact fits_plain h rfl fun _ _ hs => by cases hs
  | .int64, present, p, h, (v : Int64), _ => by
    simp only [Shape.suits] at h
    exact fits_plain h rfl fun _ _ hs => by cases hs
  | .moment, present, p, h, (v : Moment), _ => by
    simp only [Shape.suits, Bool.and_eq_true, Option.isNone_iff_eq_none] at h
    exact fits_plain h.1 rfl fun _ values _ hv => by simp [h.2] at hv
  | .raw, present, p, h, _, _ => by simp [Shape.suits] at h
  | .choice l first others, present, p, h, (i : Fin (others.length + 1)), _ => by
    simp only [Shape.suits, Bool.and_eq_true] at h
    have hlists := List.all_eq_true.mp h.2 _ (List.get_mem (first :: others) i)
    exact fits_plain h.1 rfl fun _ values _ hv => mem_of_lists hlists hv
  | .list e, present, p, h, (vs : List e.Value), _ => by
    simp only [Shape.suits, Property.isPlain, Bool.and_eq_true, Option.isNone_iff_eq_none,
      decide_eq_true_eq] at h
    obtain ⟨⟨hr, ht⟩, hitems⟩ := h
    cases hq : p.items with
    | none => simp [hq] at hitems
    | some q =>
      simp only [hq, Option.map_some, Option.getD_some] at hitems
      refine .array hr ht hq fun j hj => ?_
      obtain ⟨v, _, rfl⟩ := List.mem_map.mp hj
      exact shape_fits hk e hitems v (by simp)
  | .table e, present, p, h, (vs : List (String × e.Value)), _ => by
    simp only [Shape.suits] at h
    exact fits_plain h rfl fun _ _ hs => by cases hs
  | .optional e, present, p, h, (v : Option e.Value), hv => by
    simp only [Shape.suits, Bool.and_eq_true] at h
    cases v with
    | none => simp [Shape.isEmpty] at hv; simp [hv] at h
    | some v => exact shape_fits hk e h.2 v (by simp)
  | .record l reading fs, present, p, h, (vs : fs.Values), _ => by
    simp only [Shape.suits, Bool.and_eq_true, decide_eq_true_eq, Bool.or_eq_true,
      Bool.not_eq_true'] at h
    obtain ⟨hr, hn | ho⟩ := h
    · exact .outside hr fun hm => by simp [hk.names _ hm] at hn
    · cases hobject : f.object? (name l.type) with
      | none => simp [hobject] at ho
      | some o =>
        simp only [hobject, Option.map_some, Option.getD_some, Bool.and_eq_true] at ho
        exact .defined hr (hk.objects _ _ hobject) (holds_of_fit ho.1 (fields_fit hk fs ho.2 vs))

theorem fields_fit (hk : f.Within k) : ∀ (fs : Fields) {o : ObjectDescriptor}, fs.suit f name o = true →
    ∀ vs : fs.Values, ∀ m ∈ fs.encode vs, m.1 ∈ Entries.keys o.properties ∧
      ∀ q, Entries.get? o.properties m.1 = some q → Fits k (q.unpinned m.1) m.2
  | .nil, o, _, vs => by simp [Fields.encode]
  | .own l s rest, o, h, (v, vs) => by
    simp only [Fields.suit, Bool.and_eq_true] at h
    have ih := fields_fit hk rest h.2 vs
    cases hq : Entries.get? o.properties l.name with
    | none => simp [hq] at h
    | some q =>
      simp only [hq, Option.map_some, Option.getD_some] at h
      by_cases hempty : l.presence = .omittable ∧ s.isEmpty v = true
      · rw [Fields.encode, if_pos hempty]
        exact ih
      · rw [Fields.encode, if_neg hempty]
        intro m hm
        obtain rfl | hm := List.mem_cons.mp hm
        · refine ⟨(Entries.get?_isSome_iff _ _).mp (Option.isSome_of_eq_some hq), fun q' hq' => ?_⟩
          obtain rfl := Option.some.inj (hq.symm.trans hq')
          refine shape_fits hk s h.1 v fun hl => ?_
          simpa using fun he => hempty ⟨by simpa using hl, he⟩
        · exact ih m hm
  | .spread _ fs rest, o, h, (v, vs) => by
    simp only [Fields.suit, Bool.and_eq_true] at h
    intro m hm
    rw [Fields.encode] at hm
    obtain hm | hm := List.mem_append.mp hm
    · exact fields_fit hk fs h.1 v m hm
    · exact fields_fit hk rest h.2 vs m hm

end

end Proofs.Fitting

end ModelSchema
