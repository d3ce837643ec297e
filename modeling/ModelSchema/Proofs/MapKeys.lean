import ModelSchema.Proofs.Faults

namespace ModelSchema

namespace TypeGraph

variable (g : TypeGraph) (s : Settings)

/-- `r` comes to `t` when it is substituted, and what is below an optional layer is substituted again
until no such layer is left. -/
inductive Unwraps : TypeRef → TypeRef → Prop where
  | done {r : TypeRef} (h : (g.info (s.substitute r)).kind.isOptional = false) :
    Unwraps r (s.substitute r)
  | optional {r e t : TypeRef} (h : (g.info (s.substitute r)).kind = .optional e)
    (ht : Unwraps e t) : Unwraps r t

/-- The reference `r`, substituted once at every step, holds a map whose keys are declared as `k`.
Structs, types that exist in Java already and bytes are not looked into. -/
inductive HoldsMap : TypeRef → TypeRef → Prop where
  | map {r k v : TypeRef} (hm : s.manualType? (s.substitute r) = none)
      (hk : (g.info (s.substitute r)).kind = .map k v) : HoldsMap r k
  | value {r k v k' : TypeRef} (hm : s.manualType? (s.substitute r) = none)
      (hk : (g.info (s.substitute r)).kind = .map k v) (h : HoldsMap v k') : HoldsMap r k'
  | optional {r e k : TypeRef} (hm : s.manualType? (s.substitute r) = none)
      (hk : (g.info (s.substitute r)).kind = .optional e) (h : HoldsMap e k) : HoldsMap r k
  | seq {r e k : TypeRef} (hm : s.manualType? (s.substitute r) = none)
      (hk : (g.info (s.substitute r)).kind = .seq e) (hb : g.isByte (s.substitute e) = false)
      (h : HoldsMap e k) : HoldsMap r k

/-- The walk from `root` goes through the fields of `t`, unless it fails before: `t` is the root, or
embedded by such a type, or a field of such a type leads to it. -/
inductive Walked (root : TypeRef) : TypeRef → Prop where
  | root : Walked root root
  | embedded {t r : TypeRef} {f : Field} (ht : Walked root t) (hf : f ∈ (g.info t).kind.fields)
      (hi : f.isInline = true) (hr : g.Resolves f.type r) : Walked root (s.substitute r)
  | referred {t u : TypeRef} {f : Field} (ht : Walked root t) (hf : f ∈ (g.info t).kind.fields)
      (hi : f.isInline = false) (hu : g.Leads s f.type u) : Walked root u

/-- The walk from `root` meets a map with keys declared as `k`, in a field of `owner`. -/
def MeetsMap (root owner k : TypeRef) : Prop :=
  g.Walked s root owner ∧
    ∃ f ∈ (g.info owner).kind.fields, f.isInline = false ∧ g.HoldsMap s f.type k

/-- The walk from `root` meets a map, in a field of `owner`, whose keys come to the type `key` and
are neither text nor an enumeration. -/
def WrongKey (root owner key : TypeRef) : Prop :=
  ∃ k, g.MeetsMap s root owner k ∧ g.Resolves (s.substitute k) key ∧
    (g.info key).kind.isKey = false

end TypeGraph

namespace Proofs.MapKeys

open Faults

variable {g : TypeGraph} {s : Settings} {root : TypeRef}

section

variable {k t : TypeRef}

theorem unwraps_iff (h : ∀ e, Relation.TransGen g.Wraps (s.substitute k) e → s.substitute e = e) :
    g.Unwraps s k t ↔ g.Resolves (s.substitute k) t := by
  constructor
  · intro ht
    induction ht with
    | done hk => exact .done hk
    | @optional k e t hk _ ih =>
      have he : s.substitute e = e := h e (.single hk)
      rw [he] at ih
      exact .optional hk (ih fun u hu => h u (.head hk hu))
  · intro ht
    generalize hr : s.substitute k = r at ht h
    induction ht generalizing k with
    | done hk =>
      subst hr
      exact .done hk
    | @optional r e t hk _ ih =>
      have he : s.substitute e = e := h e (.single hk)
      subst hr
      exact .optional hk (ih he fun u hu => h u (.head hk hu))

end

theorem wrongKey_iff_unwraps {owner key : TypeRef} (h : ∀ owner k, g.MeetsMap s root owner k →
    ∀ e, Relation.TransGen g.Wraps (s.substitute k) e → s.substitute e = e) :
    g.WrongKey s root owner key ↔ ∃ k, g.MeetsMap s root owner k ∧ g.Unwraps s k key ∧
      (g.info key).kind.isKey = false := by
  refine exists_congr fun k => and_congr_right fun hk => ?_
  rw [unwraps_iff (h owner k hk)]

theorem hasKey_iff_holdsMap {r key : TypeRef} :
    g.HasKey s r key ↔ ∃ k, g.HoldsMap s r k ∧ g.Resolves (s.substitute k) key := by
  constructor
  · intro h
    induction h with
    | key hm hk hr => exact ⟨_, .map hm hk, hr⟩
    | value hm hk _ ih =>
      obtain ⟨k', hk', hr⟩ := ih
      exact ⟨k', .value hm hk hk', hr⟩
    | optional hm hk _ ih =>
      obtain ⟨k', hk', hr⟩ := ih
      exact ⟨k', .optional hm hk hk', hr⟩
    | seq hm hk hb _ ih =>
      obtain ⟨k', hk', hr⟩ := ih
      exact ⟨k', .seq hm hk hb hk', hr⟩
  · rintro ⟨k, hk, hr⟩
    induction hk with
    | map hm hk => exact .key hm hk hr
    | value hm hk _ ih => exact .value hm hk (ih hr)
    | optional hm hk _ ih => exact .optional hm hk (ih hr)
    | seq hm hk hb _ ih => exact .seq hm hk hb (ih hr)

section

variable {t u : TypeRef}

theorem walked_field {f : Field} (h : g.HasField s t f) (ht : g.Walked s root t)
    (hu : g.Leads s f.type u) : g.Walked s root u := by
  induction h with
  | own hf hi => exact .referred ht hf hi hu
  | embedded hf hi hr _ ih => exact ih (.embedded ht hf hi hr) hu

theorem walked_reachable (h : g.Reachable s root t) : g.Walked s root t := by
  induction h with
  | single hu =>
    obtain ⟨f, hf, hu⟩ := hu
    exact walked_field hf .root hu
  | tail _ hu ih =>
    obtain ⟨f, hf, hu⟩ := hu
    exact walked_field hf ih hu

theorem faultFrom_walked {e : WalkError} (h : g.Walked s root t) (he : g.FaultFrom s t e) :
    g.FaultFrom s root e := by
  induction h with
  | root => exact he
  | embedded _ hf hi hr ih =>
    apply ih
    obtain ⟨f', hf', he⟩ | ⟨u, hu, he⟩ := he
    · exact Or.inl ⟨_, hf, .embedded hi hr hf' he⟩
    · exact Or.inr ⟨u, reachable_embedded hf hi hr hu, he⟩
  | referred _ hf hi hu ih => exact ih (Or.inr (faultBelow_of_refers ⟨_, .own hf hi, hu⟩ he))

theorem walked_isStruct {f : Field} (h : g.Walked s root t) (hf : f ∈ (g.info t).kind.fields) :
    (g.info root).kind.isStruct = true := by
  induction h generalizing f with
  | root =>
    cases hk : (g.info root).kind with
    | struct fs => rfl
    | primitive _ | any | optional _ | seq _ | map _ _ | enumeration _ =>
      simp [hk, Kind.fields] at hf
  | embedded _ hf' _ _ ih => exact ih hf'
  | referred _ hf' _ _ ih => exact ih hf'

end

theorem wrongKey_of_fieldFault {owner : TypeRef} {f : Field} {x y : String}
    (h : g.FieldFault s owner f (.unsupportedMapKey x y)) (ho : g.Walked s root owner)
    (hf : f ∈ (g.info owner).kind.fields) : ∃ owner' key, g.WrongKey s root owner' key ∧
      x = g.displayName owner' ∧ y = g.displayName key := by
  generalize he : WalkError.unsupportedMapKey x y = e at h
  induction h with
  | inline _ _ _ => cases he
  | @key owner f e hi hfault =>
    obtain ⟨key, hkey, hwrong, rfl⟩ := hfault
    obtain ⟨k, hk, hr⟩ := hasKey_iff_holdsMap.mp hkey
    cases he
    exact ⟨owner, key, ⟨k, ⟨ho, f, hf, hi, hk⟩, hr, hwrong⟩, rfl, rfl⟩
  | embedded hi hr hf' _ ih => exact ih (.embedded ho hf hi hr) hf' he

theorem faultFrom_key_iff {x y : String} :
    g.FaultFrom s root (.unsupportedMapKey x y) ↔ ∃ owner key, g.WrongKey s root owner key ∧
      x = g.displayName owner ∧ y = g.displayName key := by
  constructor
  · rintro (⟨f, hf, he⟩ | ⟨t, ht, f, hf, he⟩)
    · exact wrongKey_of_fieldFault he .root hf
    · exact wrongKey_of_fieldFault he (walked_reachable ht) hf
  · rintro ⟨owner, key, ⟨k, ⟨ho, f, hf, hi, hk⟩, hr, hwrong⟩, rfl, rfl⟩
    have hkey := hasKey_iff_holdsMap.mpr ⟨k, hk, hr⟩
    exact faultFrom_walked ho (Or.inl ⟨f, hf, .key hi ⟨key, hkey, hwrong, rfl⟩⟩)

/-- A map is rejected for the type that its keys, substituted once, come to without their optional
layers, and only for that type: the reported error is about such a key that is neither text nor an
enumeration, and where there is one the generation is rejected, for such a key or for an inline field
that is no struct. Where no type below an optional layer of a key is substituted, the wrong keys are
those that substituting below every such layer comes to. -/
theorem keys_judged {n : Nat}
    (hend : (g.generateWithin s n root).result ≠ .error (.walk .endless)) :
    (∀ x y, (g.generateWithin s n root).result = .error (.walk (.unsupportedMapKey x y)) →
      ∃ owner key, g.WrongKey s (s.substitute root) owner key ∧
        x = g.displayName owner ∧ y = g.displayName key) ∧
    ((∃ owner key, g.WrongKey s (s.substitute root) owner key) →
      (∃ x y, (g.generateWithin s n root).result = .error (.walk (.unsupportedMapKey x y))) ∨
      ∃ x y z, (g.generateWithin s n root).result = .error (.walk (.inlineNotStruct x y z))) ∧
    ((∀ owner k, g.MeetsMap s (s.substitute root) owner k →
        ∀ e, Relation.TransGen g.Wraps (s.substitute k) e → s.substitute e = e) →
      ∀ owner key, g.WrongKey s (s.substitute root) owner key ↔
        ∃ k, g.MeetsMap s (s.substitute root) owner k ∧ g.Unwraps s k key ∧
          (g.info key).kind.isKey = false) := by
  refine ⟨fun x y h => ?_, ?_, fun h owner key => wrongKey_iff_unwraps h⟩
  · exact faultFrom_key_iff.mp (generateWithin_fails (by simp) h)
  · rintro ⟨owner, key, hwrong⟩
    have hfault := faultFrom_key_iff.mpr ⟨owner, key, hwrong, rfl, rfl⟩
    obtain ⟨k, ⟨hwalked, f, hf, _⟩, _⟩ := hwrong
    obtain ⟨e, hne, hresult⟩ :=
      generateWithin_rejects (walked_isStruct hwalked hf) hend hfault
    cases e with
    | endless => exact absurd rfl hne
    | unsupportedMapKey x y => exact Or.inl ⟨x, y, hresult⟩
    | inlineNotStruct x y z => exact Or.inr ⟨x, y, z, hresult⟩

def archive : TypeGraph where
  info
    | .declared "Archive" => ⟨"Archive", "archive", none, .struct [
        { name := "shelf", type := .option (.declared "Shelf"), isInline := true }]⟩
    | .declared "Shelf" => ⟨"Shelf", "archive", none, .struct [
        { name := "stamps",
          type := .list (.map .sorted (.option (.declared "Stamp")) (.declared "number")) }]⟩
    | .declared "Index" => ⟨"Index", "archive", none, .struct [
        { name := "names",
          type := .map .sorted (.option (.declared "code")) (.declared "text") }]⟩
    | .declared "Stamp" => ⟨"Stamp", "archive", none, .struct []⟩
    | .declared "text" => ⟨"", "", none, .primitive .string⟩
    | .declared "code" => ⟨"", "", none, .primitive .string⟩
    | .declared "number" => ⟨"", "", none, .primitive .int64⟩
    | .option e => ⟨"", "", none, .optional e⟩
    | .list e => ⟨"", "", none, .seq e⟩
    | .map _ k v => ⟨"", "", none, .map k v⟩
    | _ => ⟨"", "", none, .any⟩
  refs := [.declared "Archive", .declared "Shelf", .declared "Index", .declared "Stamp",
    .declared "text", .declared "code", .declared "number", .option (.declared "Shelf"),
    .option (.declared "Stamp"), .option (.declared "code"),
    .map .sorted (.option (.declared "Stamp")) (.declared "number"),
    .list (.map .sorted (.option (.declared "Stamp")) (.declared "number")),
    .map .sorted (.option (.declared "code")) (.declared "text")]

/-- A stamp is written as a text, and a code as a number. -/
def archiveSettings : Settings where
  substitutions :=
    [(.declared "Stamp", .declared "text"), (.declared "code", .declared "number")]

theorem archive_meets_stamps : archive.MeetsMap archiveSettings (.declared "Archive")
    (.declared "Shelf") (.option (.declared "Stamp")) := by
  refine ⟨?_, _, List.mem_cons_self, rfl, ?_⟩
  · exact .embedded (r := .declared "Shelf") .root List.mem_cons_self rfl
      (.optional rfl (.done rfl))
  · exact .seq (e := .map .sorted (.option (.declared "Stamp")) (.declared "number")) rfl rfl rfl
      (.map rfl rfl)

theorem archive_meets_codes : archive.MeetsMap archiveSettings (.declared "Index")
    (.declared "Index") (.option (.declared "code")) :=
  ⟨.root, _, List.mem_cons_self, rfl, .map rfl rfl⟩

theorem archive_wrongKey : archive.WrongKey archiveSettings (.declared "Archive")
    (.declared "Shelf") (.declared "Stamp") :=
  ⟨_, archive_meets_stamps, .optional rfl (.done rfl), rfl⟩

theorem archive_result : (archive.generate archiveSettings (.declared "Archive")).result =
    .error (.walk (.unsupportedMapKey "archive.Shelf" "archive.Stamp")) := by
  rfl

theorem archive_keys_judged :
    (archive.generate archiveSettings (.declared "Archive")).result ≠ .error (.walk .endless) ∧
    (∃ owner key, archive.WrongKey archiveSettings (.declared "Archive") owner key ∧
      "archive.Shelf" = archive.displayName owner ∧
      "archive.Stamp" = archive.displayName key) ∧
    ∃ x y, (archive.generate archiveSettings (.declared "Archive")).result =
      .error (.walk (.unsupportedMapKey x y)) := by
  have hend : (archive.generate archiveSettings (.declared "Archive")).result ≠
      .error (.walk .endless) := by
    rw [archive_result]
    simp
  obtain ⟨hreported, hrejected, _⟩ := keys_judged hend
  refine ⟨hend, hreported _ _ archive_result, ?_⟩
  obtain h | ⟨x, y, z, h⟩ := hrejected ⟨_, _, archive_wrongKey⟩
  · exact h
  · cases archive_result.symm.trans h

/-- Stamps come to a text when what is below the optional layer is substituted, and the archive is
rejected for them. Codes come to a number in this way, and the index is accepted. -/
theorem archive_keys_not_unwrapped :
    (archive.MeetsMap archiveSettings (.declared "Archive") (.declared "Shelf")
        (.option (.declared "Stamp")) ∧
      archive.Unwraps archiveSettings (.option (.declared "Stamp")) (.declared "text") ∧
      (archive.info (.declared "text")).kind.isKey = true ∧
      (archive.generate archiveSettings (.declared "Archive")).result =
        .error (.walk (.unsupportedMapKey "archive.Shelf" "archive.Stamp"))) ∧
    archive.MeetsMap archiveSettings (.declared "Index") (.declared "Index")
        (.option (.declared "code")) ∧
      archive.Unwraps archiveSettings (.option (.declared "code")) (.declared "number") ∧
      (archive.info (.declared "number")).kind.isKey = false ∧
      ∃ d, (archive.generate archiveSettings (.declared "Index")).result = .ok d := by
  have hstamp : archive.Unwraps archiveSettings (.declared "Stamp") (.declared "text") := .done rfl
  have hcode : archive.Unwraps archiveSettings (.declared "code") (.declared "number") := .done rfl
  exact ⟨⟨archive_meets_stamps, .optional rfl hstamp, rfl, archive_result⟩,
    archive_meets_codes, .optional rfl hcode, rfl, _, rfl⟩

end Proofs.MapKeys

end ModelSchema
