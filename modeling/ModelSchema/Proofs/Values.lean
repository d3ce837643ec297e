import Mathlib.Algebra.Ring.Int.Defs
import ModelSchema.Json.Scan
import ModelSchema.Proofs.Entries
import ModelSchema.Proofs.Rereading

namespace ModelSchema

namespace Json

@[elab_as_elim]
theorem induction {P : Json → Prop} (null : P .null) (bool : ∀ b, P (.bool b))
    (int : ∀ n, P (.int n)) (float : ∀ x, P (.float x)) (string : ∀ s, P (.string s))
    (array : ∀ xs, (∀ x ∈ xs, P x) → P (.array xs))
    (object : ∀ ms, (∀ m ∈ ms, P m.2) → P (.object ms)) (v : Json) : P v :=
  @Json.rec P (fun xs => ∀ x ∈ xs, P x) (fun ms => ∀ m ∈ ms, P m.2) (fun m => P m.2)
    null bool int float string array object
    (by simp) (fun x xs hx hxs => List.forall_mem_cons.mpr ⟨hx, hxs⟩)
    (by simp) (fun m ms hm hms => List.forall_mem_cons.mpr ⟨hm, hms⟩)
    (fun _ _ h => h) v

mutual

/-- How many arrays and objects stand inside each other. -/
def depth : Json → Nat
  | .array xs => itemsDepth xs + 1
  | .object ms => membersDepth ms + 1
  | _ => 0

def itemsDepth : List Json → Nat
  | [] => 0
  | x :: xs => max x.depth (itemsDepth xs)

def membersDepth : List (String × Json) → Nat
  | [] => 0
  | (_, v) :: ms => max v.depth (membersDepth ms)

end

mutual

/-- The value with the repeated keys of each object merged: the first place and the last value
count. -/
def merged : Json → Json
  | .array xs => .array (mergedItems xs)
  | .object ms => .object (Entries.ofList (mergedMembers ms))
  | v => v

def mergedItems : List Json → List Json
  | [] => []
  | x :: xs => x.merged :: mergedItems xs

def mergedMembers : List (String × Json) → List (String × Json)
  | [] => []
  | (k, v) :: ms => (k, v.merged) :: mergedMembers ms

end

mutual

def mapFloats (f : Binary64 → Binary64) : Json → Json
  | .float x => .float (f x)
  | .array xs => .array (mapItemFloats f xs)
  | .object ms => .object (mapMemberFloats f ms)
  | v => v

def mapItemFloats (f : Binary64 → Binary64) : List Json → List Json
  | [] => []
  | x :: xs => x.mapFloats f :: mapItemFloats f xs

def mapMemberFloats (f : Binary64 → Binary64) : List (String × Json) → List (String × Json)
  | [] => []
  | (k, v) :: ms => (k, v.mapFloats f) :: mapMemberFloats f ms

end

/-- What a reader makes of the text of the value. -/
def reread (v : Json) : Json :=
  (v.mapFloats Binary64.reread).merged

def rereadItems (xs : List Json) : List Json :=
  mergedItems (mapItemFloats Binary64.reread xs)

def rereadMembers (ms : List (String × Json)) : List (String × Json) :=
  mergedMembers (mapMemberFloats Binary64.reread ms)

mutual

def mapKeys (f : String → String) : Json → Json
  | .array xs => .array (mapItemKeys f xs)
  | .object ms => .object (mapMemberKeys f ms)
  | v => v

def mapItemKeys (f : String → String) : List Json → List Json
  | [] => []
  | x :: xs => x.mapKeys f :: mapItemKeys f xs

def mapMemberKeys (f : String → String) : List (String × Json) → List (String × Json)
  | [] => []
  | (k, v) :: ms => (f k, v.mapKeys f) :: mapMemberKeys f ms

end

/-- The integers are those of 64 bits, signed or unsigned, and the other numbers have the
property. -/
inductive StorableWith (P : Binary64 → Prop) : Json → Prop where
  | null : StorableWith P .null
  | bool (b : Bool) : StorableWith P (.bool b)
  | int {n : Int} (low : -2 ^ 63 ≤ n) (high : n < 2 ^ 64) : StorableWith P (.int n)
  | float {x : Binary64} (h : P x) : StorableWith P (.float x)
  | string (s : String) : StorableWith P (.string s)
  | array {xs : List Json} (h : ∀ x ∈ xs, StorableWith P x) : StorableWith P (.array xs)
  | object {ms : List (String × Json)} (h : ∀ m ∈ ms, StorableWith P m.2) :
    StorableWith P (.object ms)

abbrev Storable : Json → Prop :=
  StorableWith fun _ => True

abbrev Representable : Json → Prop :=
  StorableWith fun x => x.reread = x

theorem mergedItems_eq_map (xs : List Json) : mergedItems xs = xs.map merged := by
  induction xs with
  | nil => rfl
  | cons x xs ih => rw [mergedItems, ih, List.map_cons]

theorem mergedMembers_eq_map (ms : List (String × Json)) :
    mergedMembers ms = ms.map fun m => (m.1, m.2.merged) := by
  induction ms with
  | nil => rfl
  | cons m ms ih => rw [mergedMembers, ih, List.map_cons]

theorem mapItemFloats_eq_map (f : Binary64 → Binary64) (xs : List Json) :
    mapItemFloats f xs = xs.map (mapFloats f) := by
  induction xs with
  | nil => rfl
  | cons x xs ih => rw [mapItemFloats, ih, List.map_cons]

theorem mapMemberFloats_eq_map (f : Binary64 → Binary64) (ms : List (String × Json)) :
    mapMemberFloats f ms = ms.map fun m => (m.1, m.2.mapFloats f) := by
  induction ms with
  | nil => rfl
  | cons m ms ih => rw [mapMemberFloats, ih, List.map_cons]

theorem mapItemKeys_eq_map (f : String → String) (xs : List Json) :
    mapItemKeys f xs = xs.map (mapKeys f) := by
  induction xs with
  | nil => rfl
  | cons x xs ih => rw [mapItemKeys, ih, List.map_cons]

theorem mapMemberKeys_eq_map (f : String → String) (ms : List (String × Json)) :
    mapMemberKeys f ms = ms.map fun m => (f m.1, m.2.mapKeys f) := by
  induction ms with
  | nil => rfl
  | cons m ms ih => rw [mapMemberKeys, ih, List.map_cons]

theorem itemsDepth_le_iff {xs : List Json} {n : Nat} :
    itemsDepth xs ≤ n ↔ ∀ x ∈ xs, x.depth ≤ n := by
  induction xs with
  | nil => simp [itemsDepth]
  | cons x xs ih => rw [itemsDepth, Nat.max_le, ih, List.forall_mem_cons]

theorem membersDepth_le_iff {ms : List (String × Json)} {n : Nat} :
    membersDepth ms ≤ n ↔ ∀ m ∈ ms, m.2.depth ≤ n := by
  induction ms with
  | nil => simp [membersDepth]
  | cons m ms ih => rw [membersDepth, Nat.max_le, ih, List.forall_mem_cons]

theorem depth_merged_le (v : Json) : v.merged.depth ≤ v.depth := by
  induction v using Json.induction with
  | null | bool _ | int _ | float _ | string _ => exact Nat.le_refl _
  | array xs ih =>
    rw [merged, depth, depth, mergedItems_eq_map]
    refine Nat.succ_le_succ (itemsDepth_le_iff.mpr fun y hy => ?_)
    obtain ⟨x, hx, rfl⟩ := List.mem_map.mp hy
    exact Nat.le_trans (ih x hx) (itemsDepth_le_iff.mp (Nat.le_refl _) x hx)
  | object ms ih =>
    rw [merged, depth, depth, mergedMembers_eq_map]
    refine Nat.succ_le_succ (membersDepth_le_iff.mpr fun n hn => ?_)
    obtain ⟨m, hm, rfl⟩ := List.mem_map.mp (Entries.mem_of_mem_ofList hn)
    exact Nat.le_trans (ih m hm) (membersDepth_le_iff.mp (Nat.le_refl _) m hm)

theorem depth_mapFloats_le (f : Binary64 → Binary64) (v : Json) :
    (v.mapFloats f).depth ≤ v.depth := by
  induction v using Json.induction with
  | null | bool _ | int _ | float _ | string _ => exact Nat.zero_le _
  | array xs ih =>
    rw [mapFloats, depth, depth, mapItemFloats_eq_map]
    refine Nat.succ_le_succ (itemsDepth_le_iff.mpr fun y hy => ?_)
    obtain ⟨x, hx, rfl⟩ := List.mem_map.mp hy
    exact Nat.le_trans (ih x hx) (itemsDepth_le_iff.mp (Nat.le_refl _) x hx)
  | object ms ih =>
    rw [mapFloats, depth, depth, mapMemberFloats_eq_map]
    refine Nat.succ_le_succ (membersDepth_le_iff.mpr fun n hn => ?_)
    obtain ⟨m, hm, rfl⟩ := List.mem_map.mp hn
    exact Nat.le_trans (ih m hm) (membersDepth_le_iff.mp (Nat.le_refl _) m hm)

theorem depth_reread_le (v : Json) : v.reread.depth ≤ v.depth :=
  (depth_merged_le _).trans (depth_mapFloats_le _ v)

theorem merged_merged (v : Json) : v.merged.merged = v.merged := by
  induction v using Json.induction with
  | null | bool _ | int _ | float _ | string _ => rfl
  | array xs ih =>
    simp only [merged, mergedItems_eq_map, List.map_map]
    exact congrArg Json.array (List.map_congr_left ih)
  | object ms ih =>
    have hvalues := Entries.map_ofList merged (ms.map fun m => (m.1, m.2.merged))
    have hmerged : (ms.map fun m => (m.1, m.2.merged.merged)) = ms.map fun m => (m.1, m.2.merged) :=
      List.map_congr_left fun m hm => congrArg (Prod.mk m.1) (ih m hm)
    rw [List.map_map] at hvalues
    simp only [merged, mergedMembers_eq_map]
    rw [hvalues]
    exact congrArg Json.object ((congrArg Entries.ofList
      (congrArg Entries.ofList hmerged)).trans (Entries.ofList_of_nodup
        (Entries.keys_ofList_nodup _)))

section

variable {P Q : Binary64 → Prop} {v : Json}

@[simp] theorem storableWith_array_iff {xs : List Json} :
    (array xs).StorableWith P ↔ ∀ x ∈ xs, x.StorableWith P := by
  refine ⟨fun h => ?_, .array⟩
  cases h with
  | array h => exact h

@[simp] theorem storableWith_object_iff {ms : List (String × Json)} :
    (object ms).StorableWith P ↔ ∀ m ∈ ms, m.2.StorableWith P := by
  refine ⟨fun h => ?_, .object⟩
  cases h with
  | object h => exact h

theorem representable_array_iff {xs : List Json} :
    (array xs).Representable ↔ ∀ x ∈ xs, x.Representable :=
  storableWith_array_iff

theorem representable_object_iff {ms : List (String × Json)} :
    (object ms).Representable ↔ ∀ m ∈ ms, m.2.Representable :=
  storableWith_object_iff

theorem StorableWith.mono (h : v.StorableWith P) (hPQ : ∀ x, P x → Q x) : v.StorableWith Q := by
  induction v using Json.induction with
  | null => exact .null
  | bool b => exact .bool b
  | int n =>
    cases h with
    | int low high => exact .int low high
  | float x =>
    cases h with
    | float h => exact .float (hPQ x h)
  | string s => exact .string s
  | array xs ih => exact .array fun x hx => ih x hx (storableWith_array_iff.mp h x hx)
  | object ms ih => exact .object fun m hm => ih m hm (storableWith_object_iff.mp h m hm)

theorem StorableWith.storable (h : v.StorableWith P) : v.Storable :=
  h.mono fun _ _ => trivial

theorem StorableWith.merged (h : v.StorableWith P) : v.merged.StorableWith P := by
  induction v using Json.induction with
  | null | bool _ | int _ | float _ | string _ => exact h
  | array xs ih =>
    rw [Json.merged, mergedItems_eq_map]
    refine .array fun y hy => ?_
    obtain ⟨x, hx, rfl⟩ := List.mem_map.mp hy
    exact ih x hx (storableWith_array_iff.mp h x hx)
  | object ms ih =>
    rw [Json.merged, mergedMembers_eq_map]
    refine .object fun n hn => ?_
    obtain ⟨m, hm, rfl⟩ := List.mem_map.mp (Entries.mem_of_mem_ofList hn)
    exact ih m hm (storableWith_object_iff.mp h m hm)

theorem StorableWith.mapKeys (h : v.StorableWith P) (f : String → String) :
    (v.mapKeys f).StorableWith P := by
  induction v using Json.induction with
  | null | bool _ | int _ | float _ | string _ => exact h
  | array xs ih =>
    rw [Json.mapKeys, mapItemKeys_eq_map]
    refine .array fun y hy => ?_
    obtain ⟨x, hx, rfl⟩ := List.mem_map.mp hy
    exact ih x hx (storableWith_array_iff.mp h x hx)
  | object ms ih =>
    rw [Json.mapKeys, mapMemberKeys_eq_map]
    refine .object fun n hn => ?_
    obtain ⟨m, hm, rfl⟩ := List.mem_map.mp hn
    exact ih m hm (storableWith_object_iff.mp h m hm)

theorem Storable.mapFloats (h : v.Storable) (f : Binary64 → Binary64) :
    (v.mapFloats f).Storable := by
  induction v using Json.induction with
  | null | bool _ | int _ | string _ => exact h
  | float x => exact .float trivial
  | array xs ih =>
    rw [Json.mapFloats, mapItemFloats_eq_map]
    refine .array fun y hy => ?_
    obtain ⟨x, hx, rfl⟩ := List.mem_map.mp hy
    exact ih x hx (storableWith_array_iff.mp h x hx)
  | object ms ih =>
    rw [Json.mapFloats, mapMemberFloats_eq_map]
    refine .object fun n hn => ?_
    obtain ⟨m, hm, rfl⟩ := List.mem_map.mp hn
    exact ih m hm (storableWith_object_iff.mp h m hm)

theorem Storable.reread (h : v.Storable) : v.reread.Storable :=
  (h.mapFloats Binary64.reread).merged

theorem StorableWith.mapFloats_eq {f : Binary64 → Binary64}
    (h : v.StorableWith fun x => f x = x) : v.mapFloats f = v := by
  induction v using Json.induction with
  | null | bool _ | int _ | string _ => rfl
  | float x =>
    cases h with
    | float h => exact congrArg Json.float h
  | array xs ih =>
    have hitems := storableWith_array_iff.mp h
    rw [Json.mapFloats, mapItemFloats_eq_map]
    exact congrArg Json.array ((List.map_congr_left fun x hx => ih x hx (hitems x hx)).trans
      (List.map_id xs))
  | object ms ih =>
    have hmembers := storableWith_object_iff.mp h
    rw [Json.mapFloats, mapMemberFloats_eq_map]
    exact congrArg Json.object ((List.map_congr_left fun m hm =>
      congrArg (Prod.mk m.1) (ih m hm (hmembers m hm))).trans (List.map_id ms))

theorem Representable.reread (h : v.Representable) : v.reread = v.merged :=
  congrArg Json.merged h.mapFloats_eq

end

end Json

end ModelSchema
