import Mathlib.Data.List.Nodup
import Mathlib.Data.List.Perm.Basic
import ModelSchema.Api.Kinds
import ModelSchema.Proofs.ValueNodes

namespace ModelSchema.Api

open Json (Node Mark Key)

def Fields.ownNames : Fields → List String
  | .nil => []
  | .own l _ rest => l.name :: rest.ownNames
  | .spread _ _ rest => rest.ownNames

def Fields.spreadNames : Fields → List String
  | .nil => []
  | .own _ _ rest => rest.spreadNames
  | .spread _ fs rest => fs.ownNames ++ fs.spreadNames ++ rest.spreadNames

def Fields.names (fs : Fields) : List String :=
  fs.ownNames ++ fs.spreadNames

def Fields.isShallow : Fields → Bool
  | .nil => true
  | .own _ _ rest => rest.isShallow
  | .spread _ fs rest => !fs.spreads && rest.isShallow

def Shape.names : Shape → List String
  | .record _ _ fs => fs.names
  | _ => []

/-- The value is read back from what is written of it. -/
def Shape.Returns (s : Shape) (v : s.Value) : Prop :=
  s.decodeJson (s.encode v) = .ok v

def written (l : FieldLabel) (s : Shape) (v : s.Value) : List (String × Json) :=
  if l.presence = .omittable ∧ s.isEmpty v then [] else [(l.name, s.encode v)]

theorem written_cases (l : FieldLabel) (s : Shape) (v : s.Value) :
    l.presence = .omittable ∧ s.isEmpty v = true ∧ written l s v = [] ∨
      written l s v = [(l.name, s.encode v)] := by
  unfold written
  split
  · rename_i hempty
    exact .inl ⟨hempty.1, hempty.2, rfl⟩
  · exact .inr rfl

/-- Under the name of each field there stands what is written of it, and nothing else. -/
def Fields.Shown : (fs : Fields) → fs.Values → List (String × Json) → Prop
  | .nil, _, _ => True
  | .own l s rest, (v, vs), ms => ms.filter (·.1 = l.name) = written l s v ∧ rest.Shown vs ms
  | .spread _ fs rest, (v, vs), ms => fs.Shown v ms ∧ rest.Shown vs ms

def Fields.Return : (fs : Fields) → fs.Values → Prop
  | .nil, _ => True
  | .own _ s rest, (v, vs) => s.Returns v ∧ rest.Return vs
  | .spread _ fs rest, (v, vs) => fs.Return v ∧ rest.Return vs

def Fields.given : (fs : Fields) → fs.Values → List String → fs.Slots
  | .nil, _, _ => ()
  | .own l _ rest, (v, vs), keys => (if l.name ∈ keys then some v else none, rest.given vs keys)
  | .spread _ _ rest, (_, vs), keys => rest.given vs keys

theorem Fields.given_nil : ∀ (fs : Fields) (vs : fs.Values), fs.given vs [] = fs.noSlots
  | .nil, _ => rfl
  | .own _ _ rest, (_, vs) => Prod.ext rfl (rest.given_nil vs)
  | .spread _ _ rest, (_, vs) => rest.given_nil vs

theorem Fields.given_append {keys : List String} {k : String} :
    ∀ (fs : Fields) (vs : fs.Values), k ∉ fs.ownNames → fs.given vs (keys ++ [k]) = fs.given vs keys
  | .nil, _, _ => rfl
  | .own l _ rest, (_, vs), hk => by
    obtain ⟨hne, hrest⟩ := not_or.mp (mt List.mem_cons.mpr hk)
    rw [Fields.given, Fields.given, rest.given_append vs hrest]
    simp only [List.mem_append, List.mem_singleton, Ne.symm hne, or_false]
    rfl
  | .spread _ _ rest, (_, vs), hk => rest.given_append vs hk

theorem written_split {l : FieldLabel} {s : Shape} {v : s.Value} {m : String × Json}
    {before after : List (String × Json)} (h : before ++ m :: after = written l s v) :
    before = [] ∧ m = (l.name, s.encode v) := by
  obtain ⟨-, -, hnil⟩ | hone := written_cases l s v
  · exact absurd (h.trans hnil) (List.append_ne_nil_of_right_ne_nil _ (List.cons_ne_nil _ _))
  · obtain ⟨hbefore, hm⟩ | ⟨_, hm⟩ := List.append_eq_singleton_iff.mp (h.trans hone)
    · exact ⟨hbefore, (List.cons.inj hm).1⟩
    · cases hm

theorem Fields.store_own {k : String} {j : Json} {before after : List (String × Json)} :
    ∀ (fs : Fields) (vs : fs.Values), fs.Shown vs (before ++ (k, j) :: after) → fs.Return vs →
      fs.ownNames.Nodup → k ∈ fs.ownNames →
      fs.store .value false (fs.given vs (Entries.keys before)) { name := k, stop := .nowhere }
        (.ofJson j) = .ok (some (fs.given vs (Entries.keys before ++ [k])))
  | .own l s rest, (v, vs), ⟨hhead, hshown⟩, ⟨hv, hreturn⟩, hnodup, hk => by
    obtain ⟨hfresh, hnodup⟩ := List.nodup_cons.mp hnodup
    by_cases hname : l.name = k
    · subst hname
      rw [List.filter_append, List.filter_cons_of_pos (by simp)] at hhead
      obtain ⟨hbefore, hm⟩ := written_split hhead
      have hnone : l.name ∉ Entries.keys before := by
        intro hmem
        obtain ⟨m, hm, heq⟩ := List.mem_map.mp hmem
        exact List.filter_eq_nil_iff.mp hbefore m hm (decide_eq_true heq)
      have hdecode : s.decode .value (.ofJson j) = .ok v := (Prod.mk.inj hm).2 ▸ hv
      rw [Fields.given, Fields.store]
      simp [hnone, hdecode, Fields.given, rest.given_append vs hfresh]
    · have hk : k ∈ rest.ownNames := (List.mem_cons.mp hk).resolve_left (Ne.symm hname)
      rw [Fields.given, Fields.store, if_neg hname,
        rest.store_own vs hshown hreturn hnodup hk]
      simp only [Fields.given, List.mem_append, List.mem_singleton, hname, or_false]
      rfl
  | .spread _ _ rest, (_, vs), ⟨_, hshown⟩, ⟨_, hreturn⟩, hnodup, hk =>
    rest.store_own vs hshown hreturn hnodup hk

theorem Fields.store_other {origin : Origin} {lastCounts : Bool} {k : Key} {x : Node} :
    ∀ (fs : Fields) (slots : fs.Slots), k.name ∉ fs.ownNames →
      fs.store origin lastCounts slots k x = .ok none
  | .nil, _, _ => rfl
  | .own l s rest, (_, slots), hk => by
    obtain ⟨hne, hrest⟩ := not_or.mp (mt List.mem_cons.mpr hk)
    rw [Fields.store, if_neg (Ne.symm hne), rest.store_other slots hrest]
    rfl
  | .spread _ _ rest, slots, hk => rest.store_other slots hk

theorem written_ne_nil {l : FieldLabel} (s : Shape) (v : s.Value)
    (h : l.presence = .required) : written l s v ≠ [] := by
  obtain ⟨hpresence, -, -⟩ | hone := written_cases l s v
  · cases h.symm.trans hpresence
  · exact hone ▸ List.cons_ne_nil _ _

theorem mem_keys_of_filter {k : String} {ms : List (String × Json)}
    (h : ms.filter (·.1 = k) ≠ []) : k ∈ Entries.keys ms := by
  obtain ⟨m, hm⟩ := List.exists_mem_of_ne_nil _ h
  obtain ⟨hm, hk⟩ := List.mem_filter.mp hm
  exact List.mem_map.mpr ⟨m, hm, of_decide_eq_true hk⟩

theorem Fields.missing?_given {ms : List (String × Json)} :
    ∀ (fs : Fields) (vs : fs.Values), fs.Shown vs ms →
      fs.missing? (fs.given vs (Entries.keys ms)) = none
  | .nil, _, _ => rfl
  | .own l s rest, (v, vs), ⟨hhead, hshown⟩ => by
    have hhas (h : l.presence = .required) : l.name ∈ Entries.keys ms :=
      mem_keys_of_filter (hhead ▸ written_ne_nil s v h)
    rw [Fields.given, Fields.missing?, if_neg, rest.missing?_given vs hshown]
    rintro ⟨hrequired, hnone⟩
    simp [hhas hrequired] at hnone
  | .spread _ _ rest, (_, vs), ⟨_, hshown⟩ => rest.missing?_given vs hshown

theorem Shape.default_of_isEmpty : ∀ (s : Shape) (v : s.Value), s.isEmpty v = true → v = s.default
  | .text, (v : String), h => show v = "" from of_decide_eq_true h
  | .list _, (_ : List _), h => List.isEmpty_iff.mp h
  | .optional _, (_ : Option _), h => Option.isNone_iff_eq_none.mp h

theorem getD_given {l : FieldLabel} {s : Shape} {v : s.Value} {ms : List (String × Json)}
    (h : ms.filter (·.1 = l.name) = written l s v) :
    (if l.name ∈ Entries.keys ms then some v else none).getD s.default = v := by
  split
  · rfl
  · rename_i hmissing
    obtain ⟨-, hempty, -⟩ | hone := written_cases l s v
    · exact (s.default_of_isEmpty v hempty).symm
    · exact absurd (mem_keys_of_filter (h.trans hone ▸ List.cons_ne_nil _ _)) hmissing

theorem keys_append_singleton (ms : List (String × Json)) (k : String) (j : Json) :
    Entries.keys (ms ++ [(k, j)]) = Entries.keys ms ++ [k] :=
  List.map_append

theorem bind_of_ok {ε α β : Type} {x : Except ε α} {f : α → Except ε β} {a : α} {b : β}
    (hx : x = .ok a) (hf : f a = .ok b) : (x >>= f) = .ok b := by
  rw [hx]
  exact hf

theorem noticedAt_of_ok {α : Type} {place : Mark} {r : Except Failure α} {a : α} (hr : r = .ok a) :
    noticedAt place r = .ok a := by
  rw [hr]
  rfl

theorem Fields.fold_spread {fs : Fields} {vs : fs.Values} {ms : List (String × Json)}
    (hshown : fs.Shown vs ms) (hreturn : fs.Return vs) (hnodup : fs.ownNames.Nodup) :
    (Json.nodesOfMembers ms).foldlM (fun slots m => do
      match ← fs.store .value false slots m.1 m.2 with
      | some slots => return slots
      | none => return slots) fs.noSlots = .ok (fs.given vs (Entries.keys ms)) := by
  rw [← fs.given_nil vs]
  refine foldlM_nodesOfMembers (fun done => fs.given vs (Entries.keys done)) ?_
  rintro before k j after rfl
  rw [keys_append_singleton]
  by_cases hk : k ∈ fs.ownNames
  · rw [fs.store_own vs hshown hreturn hnodup hk]
    rfl
  · rw [fs.store_other _ hk, fs.given_append vs hk]
    rfl

def Fields.aside (fs : Fields) (ms : List (String × Json)) : List (Key × Node) :=
  if fs.spreads then Json.nodesOfMembers (ms.filter (·.1 ∉ fs.ownNames)) else []

theorem Fields.aside_nil (fs : Fields) : fs.aside [] = [] :=
  ite_self _

theorem Fields.aside_append_own {fs : Fields} {k : String} (hk : k ∈ fs.ownNames) (j : Json)
    (ms : List (String × Json)) : fs.aside (ms ++ [(k, j)]) = fs.aside ms := by
  rw [Fields.aside, List.filter_append, List.filter_cons_of_neg (by simpa using hk),
    List.filter_nil, List.append_nil, Fields.aside]

theorem Fields.aside_append_other {fs : Fields} {k : String} (hspreads : fs.spreads = true)
    (hk : k ∉ fs.ownNames) (j : Json) (ms : List (String × Json)) :
    fs.aside (ms ++ [(k, j)]) =
      fs.aside ms ++ [({ name := k, stop := .nowhere }, .ofJson j)] := by
  rw [Fields.aside, if_pos hspreads, List.filter_append,
    List.filter_cons_of_pos (by simpa using hk), List.filter_nil, nodesOfMembers_append,
    Fields.aside, if_pos hspreads]
  rfl

theorem Fields.aside_of_not_spreads {fs : Fields} (hspreads : ¬fs.spreads = true)
    (ms : List (String × Json)) : fs.aside ms = [] :=
  if_neg hspreads

theorem Fields.fold_own {fs : Fields} {vs : fs.Values} {ms : List (String × Json)}
    (hshown : fs.Shown vs ms) (hreturn : fs.Return vs) (hnodup : fs.ownNames.Nodup) :
    (Json.nodesOfMembers ms).foldlM (fun (state : fs.Slots × List (Key × Node)) m => do
      checkKey m.1
      match ← fs.store Origin.value.inside false state.1 m.1 m.2 with
      | some slots => return (slots, state.2)
      | none =>
        if fs.spreads then do
          let _ ← takeJson Origin.value.inside.limit m.2
          return (state.1, state.2 ++ [m])
        else do
          passOver m.2
          return state) (fs.noSlots, []) =
      .ok (fs.given vs (Entries.keys ms), fs.aside ms) := by
  have hbegin : (fs.noSlots, ([] : List (Key × Node))) = (fs.given vs [], fs.aside []) := by
    rw [fs.given_nil, fs.aside_nil]
  rw [hbegin]
  refine foldlM_nodesOfMembers (fun done => (fs.given vs (Entries.keys done), fs.aside done)) ?_
  rintro before k j after rfl
  rw [keys_append_singleton, Origin.inside]
  by_cases hk : k ∈ fs.ownNames
  · rw [fs.store_own vs hshown hreturn hnodup hk, Fields.aside_append_own hk]
    rfl
  rw [fs.store_other _ hk, fs.given_append vs hk]
  by_cases hspreads : fs.spreads = true
  · rw [Fields.aside_append_other hspreads hk, Origin.limit, takeJson_ofJson, if_pos hspreads]
    rfl
  · rw [Fields.aside_of_not_spreads hspreads before,
      Fields.aside_of_not_spreads hspreads (before ++ _), passOver_ofJson, if_neg hspreads]
    rfl

theorem Fields.Shown.filter {p : String → Bool} {ms : List (String × Json)} :
    ∀ (fs : Fields) (vs : fs.Values), (∀ k ∈ fs.names, p k = true) → fs.Shown vs ms →
      fs.Shown vs (ms.filter fun m => p m.1)
  | .nil, _, _, _ => trivial
  | .own l s rest, (v, vs), hp, ⟨hhead, hshown⟩ => by
    obtain ⟨hl, hp⟩ := List.forall_mem_cons.mp hp
    refine ⟨?_, Fields.Shown.filter rest vs hp hshown⟩
    rw [List.filter_filter, ← hhead]
    refine List.filter_congr fun m _ => ?_
    by_cases hm : m.1 = l.name <;> simp [hm, hl]
  | .spread _ fs rest, (v, vs), hp, ⟨hspread, hshown⟩ => by
    simp only [Fields.names, Fields.ownNames, Fields.spreadNames, List.forall_mem_append] at hp
    obtain ⟨hown, hinner, hrest⟩ := hp
    exact ⟨Fields.Shown.filter fs v (List.forall_mem_append.mpr hinner) hspread,
      Fields.Shown.filter rest vs (List.forall_mem_append.mpr ⟨hown, hrest⟩) hshown⟩

theorem Fields.complete_field {l : FieldLabel} {s : Shape} {rest : Fields} {v : s.Value}
    {vs : rest.Values} {stop : Mark} {aside : List (Key × Node)} {ms : List (String × Json)}
    (hhead : ms.filter (·.1 = l.name) = written l s v)
    (hrest : rest.complete .value stop aside (rest.given vs (Entries.keys ms)) = .ok vs) :
    (Fields.own l s rest).complete .value stop aside
      ((Fields.own l s rest).given (v, vs) (Entries.keys ms)) = .ok (v, vs) := by
  rw [Fields.given, Fields.complete, hrest]
  exact congrArg (fun v => Except.ok (v, vs)) (getD_given hhead)

theorem Fields.complete_own {stop : Mark} {aside : List (Key × Node)}
    {ms : List (String × Json)} :
    ∀ (fs : Fields) (vs : fs.Values), fs.spreads = false → fs.Shown vs ms →
      fs.complete .value stop aside (fs.given vs (Entries.keys ms)) = .ok vs
  | .nil, _, _, _ => rfl
  | .own _ _ rest, (_, vs), hspreads, ⟨hhead, hshown⟩ =>
    complete_field hhead (rest.complete_own vs hspreads hshown)

theorem Fields.complete_given {stop : Mark} {apart : List String} {ms : List (String × Json)} :
    ∀ (fs : Fields) (vs : fs.Values), fs.isShallow = true → fs.spreadNames.Nodup →
      (∀ k ∈ fs.spreadNames, k ∉ apart) → fs.Shown vs ms → fs.Return vs →
      fs.complete .value stop (Json.nodesOfMembers (ms.filter (·.1 ∉ apart)))
        (fs.given vs (Entries.keys ms)) = .ok vs
  | .nil, _, _, _, _, _, _ => rfl
  | .own _ _ rest, (_, vs), hshallow, hnodup, hapart, ⟨hhead, hshown⟩, ⟨_, hreturn⟩ =>
    complete_field hhead (rest.complete_given vs hshallow hnodup hapart hshown hreturn)
  | .spread _ fs rest, (v, vs), hshallow, hnodup, hapart, ⟨hspread, hshown⟩, ⟨hv, hreturn⟩ => by
    rw [Fields.isShallow, Bool.and_eq_true, Bool.not_eq_true'] at hshallow
    rw [Fields.spreadNames] at hnodup hapart
    obtain ⟨hapartSpread, hapartRest⟩ := List.forall_mem_append.mp hapart
    have hshownSpread : fs.Shown v (ms.filter (·.1 ∉ apart)) :=
      Fields.Shown.filter fs v (fun k hk => decide_eq_true (hapartSpread k hk)) hspread
    have hfold := Fields.fold_spread hshownSpread hv hnodup.of_append_left.of_append_left
    refine bind_of_ok (noticedAt_of_ok hfold) ?_
    rw [fs.missing?_given v hshownSpread]
    refine bind_of_ok (fs.complete_own v hshallow.1 hshownSpread) ?_
    exact bind_of_ok (rest.complete_given vs hshallow.2 hnodup.of_append_right hapartRest hshown
      hreturn) rfl

/-- A record is read from members that show its values, in whatever order they stand. -/
theorem decodeJson_of_shown {l : Label} {fs : Fields} {vs : fs.Values}
    {ms : List (String × Json)} (hshallow : fs.isShallow = true) (hnodup : fs.names.Nodup)
    (hshown : fs.Shown vs ms) (hreturn : fs.Return vs) :
    (Shape.record l .strict fs).decodeJson (.object ms) = .ok vs := by
  obtain ⟨hown, hspread, hapart⟩ := List.nodup_append'.mp hnodup
  refine bind_of_ok (Fields.fold_own hshown hreturn hown) (bind_of_ok rfl ?_)
  rw [fs.missing?_given vs hshown]
  by_cases hspreads : fs.spreads = true
  · rw [Fields.aside, if_pos hspreads]
    exact fs.complete_given vs hshallow hspread (fun k hk hkown => hapart hkown hk) hshown hreturn
  · exact fs.complete_own vs (Bool.eq_false_iff.mpr hspreads) hshown

theorem Fields.names_spread (l : Label) (fs rest : Fields) :
    (Fields.spread l fs rest).names.Perm (fs.names ++ rest.names) :=
  List.perm_append_comm_assoc _ _ _

theorem Fields.encode_own (l : FieldLabel) (s : Shape) (rest : Fields) (v : s.Value)
    (vs : rest.Values) :
    (Fields.own l s rest).encode (v, vs) = written l s v ++ rest.encode vs := by
  rw [Fields.encode, written]
  split <;> rfl

theorem name_of_written {l : FieldLabel} {s : Shape} {v : s.Value} {m : String × Json}
    (hm : m ∈ written l s v) : m.1 = l.name := by
  obtain ⟨-, -, hnil⟩ | hone := written_cases l s v
  · rw [hnil] at hm
    cases hm
  · rw [hone, List.mem_singleton] at hm
    rw [hm]

theorem Fields.mem_names_of_encode {m : String × Json} :
    ∀ (fs : Fields) (vs : fs.Values), m ∈ fs.encode vs → m.1 ∈ fs.names
  | .own l s rest, (v, vs), hm => by
    rw [Fields.encode_own, List.mem_append] at hm
    obtain hm | hm := hm
    · exact List.mem_cons.mpr (.inl (name_of_written hm))
    · exact List.mem_cons_of_mem _ (rest.mem_names_of_encode vs hm)
  | .spread l fs rest, (v, vs), hm => by
    rw [(Fields.names_spread l fs rest).mem_iff, List.mem_append]
    exact (List.mem_append.mp hm).imp (fs.mem_names_of_encode v) (rest.mem_names_of_encode vs)

theorem filter_name_written {l : FieldLabel} {s : Shape} {v : s.Value} :
    (written l s v).filter (·.1 = l.name) = written l s v :=
  List.filter_eq_self.mpr fun _ hm => decide_eq_true (name_of_written hm)

theorem filter_name_eq_nil {k : String} {ms : List (String × Json)} (h : ∀ m ∈ ms, m.1 ≠ k) :
    ms.filter (·.1 = k) = [] :=
  List.filter_eq_nil_iff.mpr fun m hm hk => h m hm (of_decide_eq_true hk)

theorem eq_written_of_perm {l : FieldLabel} {s : Shape} {v : s.Value}
    {ms : List (String × Json)} (h : ms.Perm (written l s v)) : ms = written l s v := by
  obtain ⟨-, -, hnil⟩ | hone := written_cases l s v
  · rw [hnil] at h ⊢
    exact List.perm_nil.mp h
  · rw [hone] at h ⊢
    exact List.perm_singleton.mp h

theorem Fields.shown_of_perm {ms : List (String × Json)} :
    ∀ (fs : Fields) (vs : fs.Values) {extra : List (String × Json)}, fs.names.Nodup →
      (∀ m ∈ extra, m.1 ∉ fs.names) → ms.Perm (fs.encode vs ++ extra) → fs.Shown vs ms
  | .nil, _, _, _, _, _ => trivial
  | .own l s rest, (v, vs), extra, hnodup, hextra, hms => by
    obtain ⟨hfresh, hnodup⟩ := List.nodup_cons.mp hnodup
    rw [Fields.encode_own, List.append_assoc] at hms
    constructor
    · have hencode : (rest.encode vs).filter (·.1 = l.name) = [] :=
        filter_name_eq_nil fun m hm hname => hfresh (hname ▸ rest.mem_names_of_encode vs hm)
      have hothers : extra.filter (·.1 = l.name) = [] :=
        filter_name_eq_nil fun m hm hname => hextra m hm (hname ▸ List.mem_cons_self)
      have hhead := hms.filter (·.1 = l.name)
      rw [List.filter_append, List.filter_append, hencode, hothers, filter_name_written,
        List.append_nil, List.append_nil] at hhead
      exact eq_written_of_perm hhead
    · refine rest.shown_of_perm vs hnodup (List.forall_mem_append.mpr ⟨?_, fun m hm hmem => ?_⟩)
        (hms.trans (List.perm_append_comm_assoc _ _ _))
      · exact fun m hm => (name_of_written hm).symm ▸ hfresh
      · exact hextra m hm (List.mem_cons_of_mem _ hmem)
  | .spread l fs rest, (v, vs), extra, hnodup, hextra, hms => by
    rw [(Fields.names_spread l fs rest).nodup_iff, List.nodup_append'] at hnodup
    obtain ⟨hfs, hrest, hapart⟩ := hnodup
    have hnames : ∀ m ∈ extra, m.1 ∉ fs.names ∧ m.1 ∉ rest.names := by
      simpa only [(Fields.names_spread l fs rest).mem_iff, List.mem_append, not_or] using hextra
    have hms : ms.Perm (fs.encode v ++ (rest.encode vs ++ extra)) :=
      hms.trans (.of_eq (List.append_assoc _ _ _))
    constructor
    · refine fs.shown_of_perm v hfs (List.forall_mem_append.mpr ⟨fun m hm hmem => ?_, ?_⟩) hms
      · exact hapart hmem (rest.mem_names_of_encode vs hm)
      · exact fun m hm => (hnames m hm).1
    · refine rest.shown_of_perm vs hrest (List.forall_mem_append.mpr ⟨fun m hm hmem => ?_, ?_⟩)
        (hms.trans (List.perm_append_comm_assoc _ _ _))
      · exact hapart (fs.mem_names_of_encode v hm) hmem
      · exact fun m hm => (hnames m hm).2

theorem decodeJson_of_perm {l : Label} {fs : Fields} {vs : fs.Values}
    {extra ms : List (String × Json)} (hshallow : fs.isShallow = true) (hnodup : fs.names.Nodup)
    (hreturn : fs.Return vs) (hextra : ∀ m ∈ extra, m.1 ∉ fs.names)
    (hms : ms.Perm (fs.encode vs ++ extra)) :
    (Shape.record l .strict fs).decodeJson (.object ms) = .ok vs :=
  decodeJson_of_shown hshallow hnodup (fs.shown_of_perm vs hnodup hextra hms) hreturn

end ModelSchema.Api
