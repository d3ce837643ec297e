import ModelSchema.Proofs.RecordMembers

namespace ModelSchema.Api

open Json (Node)

/-- Whether something in a value of the shape may be written as null. -/
def Shape.mayBeNull : Shape → Bool
  | .raw => true
  | .optional _ => true
  | _ => false

mutual

/-- Whether a value is told by what is written of it, as far as the names of fields and choices
count. Of moments and tables that is not said: their texts and their keys have orders and forms of
their own. -/
def Shape.isUnambiguous : Shape → Bool
  | .text => true
  | .flag => true
  | .int64 => true
  | .moment => false
  | .raw => true
  | .choice _ first others => decide (first :: others).Nodup
  | .list e => e.isUnambiguous
  | .table _ => false
  | .optional e => !e.mayBeNull && e.isUnambiguous
  | .record _ .lenient _ => true
  | .record _ .strict fs => decide fs.names.Nodup && fs.isShallow && fs.areUnambiguous

def Fields.areUnambiguous : Fields → Bool
  | .nil => true
  | .own _ s rest => s.isUnambiguous && rest.areUnambiguous
  | .spread _ fs rest => fs.areUnambiguous && rest.areUnambiguous

end

mutual

/-- The arbitrary values and the records of metadata in a value are read back. -/
def Shape.ForeignReturn : (s : Shape) → s.Value → Prop
  | .raw, v => Shape.raw.Returns v
  | .list e, (vs : List e.Value) => ∀ v ∈ vs, e.ForeignReturn v
  | .optional e, (v : Option e.Value) => ∀ x, v = some x → e.ForeignReturn x
  | .record l .lenient fs, vs => (Shape.record l .lenient fs).Returns vs
  | .record _ .strict fs, vs => fs.ForeignReturn vs
  | _, _ => True

def Fields.ForeignReturn : (fs : Fields) → fs.Values → Prop
  | .nil, _ => True
  | .own _ s rest, (v, vs) => s.ForeignReturn v ∧ rest.ForeignReturn vs
  | .spread _ fs rest, (v, vs) => fs.ForeignReturn v ∧ rest.ForeignReturn vs

end

theorem isUnambiguous_record_iff {l : Label} {fs : Fields} :
    (Shape.record l .strict fs).isUnambiguous = true ↔
      fs.names.Nodup ∧ fs.isShallow = true ∧ fs.areUnambiguous = true := by
  rw [Shape.isUnambiguous, Bool.and_eq_true, Bool.and_eq_true, decide_eq_true_eq, and_assoc]

theorem returns_int64 (v : Int64) : Shape.int64.Returns v := by
  have hrange : Int64.minValue.toInt ≤ v.toInt ∧ v.toInt ≤ Int64.maxValue.toInt :=
    ⟨v.minValue_le_toInt, v.toInt_le⟩
  have hvalue : Int64.ofInt v.toInt = v := v.ofInt_toInt
  refine (if_pos hrange).trans ?_
  rw [hvalue]

theorem returns_choice {l : Label} {first : String} {others : List String}
    (hnodup : (first :: others).Nodup) (i : Fin (others.length + 1)) :
    (Shape.choice l first others).Returns i := by
  have hfind : (first :: others).findFinIdx? (· == (first :: others).get i) = some i := by
    refine List.findFinIdx?_eq_some_iff.mpr ⟨beq_self_eq_true _, fun j hj heq => ?_⟩
    exact Fin.ne_of_lt hj (List.nodup_iff_injective_get.mp hnodup (eq_of_beq heq))
  change decodeChoice .value first others (.ofJson (.string ((first :: others).get i))) = .ok i
  rw [Node.ofJson, decodeChoice]
  simp only [hfind]

theorem returns_list {e : Shape} {vs : List e.Value} (h : ∀ v ∈ vs, e.Returns v) :
    (Shape.list e).Returns vs := by
  have hitems : (Json.nodesOfItems (vs.map e.encode)).mapM (e.decode .value) = .ok vs := by
    induction vs with
    | nil => rfl
    | cons v vs ih =>
      obtain ⟨hv, hvs⟩ := List.forall_mem_cons.mp h
      rw [List.map_cons, Json.nodesOfItems, List.mapM_cons]
      exact bind_of_ok hv (bind_of_ok (ih hvs) rfl)
  exact bind_of_ok hitems rfl

theorem isNull_encode : ∀ (s : Shape) (v : s.Value), s.mayBeNull = false →
    isNull (.ofJson (s.encode v)) = false
  | .text, _, _ => rfl
  | .flag, _, _ => rfl
  | .int64, _, _ => rfl
  | .moment, _, _ => rfl
  | .choice _ _ _, _, _ => rfl
  | .list _, _, _ => rfl
  | .table _, _, _ => rfl
  | .record _ _ _, _, _ => rfl

theorem decode_optional {e : Shape} {x : Node} (h : isNull x = false) (origin : Origin) :
    (Shape.optional e).decode origin x = (do
      checkNull x
      let v ← e.decode origin x
      return some v) := by
  cases x with
  | leaf s _ _ => cases s <;> first | rfl | cases h
  | flawed _ _ _ => rfl
  | array _ _ _ => rfl
  | object _ _ _ => rfl
  | torn _ _ => rfl
  | absent _ => rfl

theorem checkNull_ofJson (v : Json) : checkNull (.ofJson v) = .ok () := by
  cases v <;> rfl

theorem returns_some {e : Shape} {v : e.Value} (hnull : e.mayBeNull = false) (h : e.Returns v) :
    (Shape.optional e).Returns (some v) := by
  refine (decode_optional (isNull_encode e v hnull) _).trans ?_
  exact bind_of_ok (checkNull_ofJson _) (bind_of_ok h rfl)

mutual

theorem Shape.returns : ∀ (s : Shape) (v : s.Value), s.isUnambiguous = true →
    s.ForeignReturn v → s.Returns v
  | .text, _, _, _ => rfl
  | .flag, _, _, _ => rfl
  | .int64, v, _, _ => returns_int64 v
  | .raw, _, _, hforeign => hforeign
  | .choice _ _ _, i, hs, _ => returns_choice (of_decide_eq_true hs) i
  | .list e, (vs : List e.Value), hs, hforeign =>
    returns_list fun v hv => e.returns v hs (hforeign v hv)
  | .optional _, none, _, _ => rfl
  | .optional e, some v, hs, hforeign => by
    rw [Shape.isUnambiguous, Bool.and_eq_true, Bool.not_eq_true'] at hs
    exact returns_some hs.1 (e.returns v hs.2 (hforeign v rfl))
  | .record _ .lenient _, _, _, hforeign => hforeign
  | .record _ .strict fs, vs, hs, hforeign => by
    rw [isUnambiguous_record_iff] at hs
    exact decodeJson_of_perm hs.2.1 hs.1 (fs.returns vs hs.2.2 hforeign) (List.forall_mem_nil _)
      (.of_eq (List.append_nil _).symm)

theorem Fields.returns : ∀ (fs : Fields) (vs : fs.Values), fs.areUnambiguous = true →
    fs.ForeignReturn vs → fs.Return vs
  | .nil, _, _, _ => trivial
  | .own _ s rest, (v, vs), hfs, hforeign => by
    rw [Fields.areUnambiguous, Bool.and_eq_true] at hfs
    exact ⟨s.returns v hfs.1 hforeign.1, rest.returns vs hfs.2 hforeign.2⟩
  | .spread _ fs rest, (v, vs), hfs, hforeign => by
    rw [Fields.areUnambiguous, Bool.and_eq_true] at hfs
    exact ⟨fs.returns v hfs.1 hforeign.1, rest.returns vs hfs.2 hforeign.2⟩

end

theorem shapes_unambiguous : ∀ s ∈ shapes, s.isUnambiguous = true := by
  decide +kernel

/-- Whether only strict records of the shape are written as objects. -/
def Shape.isStrict : Shape → Bool
  | .choice _ _ _ => true
  | .record _ .strict _ => true
  | _ => false

theorem shapes_strict : ∀ s ∈ shapes, s.isStrict = true := by
  decide

end ModelSchema.Api

namespace ModelSchema.Proofs.Decoding

open Api

/-- A value of a kind, or of a part of one, is read back from what is written of it; and so it is
when the members of its object stand in any other order, among others under other names. -/
theorem decode_encode {s : Shape} (hs : s ∈ shapes) (v : s.Value) (hv : s.ForeignReturn v) :
    s.decodeJson (s.encode v) = .ok v ∧
      ∀ written extra ms : List (String × Json), s.encode v = .object written →
        (∀ m ∈ extra, m.1 ∉ s.names) → ms.Perm (written ++ extra) →
          s.decodeJson (.object ms) = .ok v := by
  have hunambiguous := shapes_unambiguous s hs
  refine ⟨s.returns v hunambiguous hv, fun written extra ms hwritten hextra hms => ?_⟩
  cases s with
  | record l reading fs =>
    cases reading with
    | strict =>
      obtain rfl : fs.encode v = written := Json.object.inj hwritten
      rw [isUnambiguous_record_iff] at hunambiguous
      obtain ⟨hnodup, hshallow, hfs⟩ := hunambiguous
      exact decodeJson_of_perm hshallow hnodup (fs.returns v hfs hv) hextra hms
    | lenient => cases shapes_strict _ hs
  | choice l first others => cases hwritten
  | text | flag | int64 | moment | raw => cases shapes_strict _ hs
  | list e | table e | optional e => cases shapes_strict _ hs

def handbook : Console.consoleLink.Value :=
  (("console.openshift.io/v1", "ConsoleLink", ()),
    (none, none, none, none, none, none, none, none, none, some "handbook", none, none, none, none,
      none, ()),
    (("Handbook", "https://docs.example.com", ()), (1 : Fin 4), none, none, ()), ())

theorem handbook_decoded :
    Console.consoleLink.decodeJson (.object [
      ("status", .null),
      ("spec", .object [
        ("text", .string "Handbook"),
        ("href", .string "https://docs.example.com"),
        ("location", .string "HelpMenu")]),
      ("metadata", .object [("name", .string "handbook")]),
      ("kind", .string "ConsoleLink"),
      ("apiVersion", .string "console.openshift.io/v1")]) = .ok handbook := by
  have hshape : Console.consoleLink ∈ shapes := by simp [shapes, Console.shapes]
  have hspec : Console.consoleLinkSpec.ForeignReturn handbook.2.2.1 :=
    ⟨⟨trivial, ⟨trivial, trivial⟩⟩, ⟨trivial, ⟨nofun, ⟨nofun, trivial⟩⟩⟩⟩
  have hmetadata : objectMeta.Returns handbook.2.1 := rfl
  have hwritten : Console.consoleLink.encode handbook = .object [
      ("apiVersion", .string "console.openshift.io/v1"),
      ("kind", .string "ConsoleLink"),
      ("metadata", .object [("name", .string "handbook")]),
      ("spec", .object [
        ("text", .string "Handbook"),
        ("href", .string "https://docs.example.com"),
        ("location", .string "HelpMenu")])] := rfl
  exact (decode_encode hshape handbook ⟨⟨trivial, ⟨trivial, trivial⟩⟩, ⟨hmetadata, ⟨hspec,
    trivial⟩⟩⟩).2 _ [("status", .null)] _ hwritten (by decide) (List.reverse_perm _).symm

end ModelSchema.Proofs.Decoding
