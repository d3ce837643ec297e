import ModelSchema.Json.Pretty
import ModelSchema.Proofs.RoundTrip

namespace ModelSchema.Json

/-- A way to write values: what stands in front of items, members and closing brackets of a level,
and what stands behind a colon. -/
structure Layout where
  line : Nat → List Char
  gap : List Char
  line_blank : ∀ level, ∀ c ∈ line level, isBlank c
  gap_blank : ∀ c ∈ gap, isBlank c
  value : Nat → Json → List Char → List Char
  items : Nat → List Json → List Char → List Char
  members : Nat → List (String × Json) → List Char → List Char
  scalar : ∀ level (s : Scalar) rest, value level s.toJson rest = compactOnto s.toJson rest
  array_nil : ∀ level rest, value level (.array []) rest = '[' :: ']' :: rest
  array_cons : ∀ level x xs rest, value level (.array (x :: xs)) rest =
    '[' :: (line (level + 1) ++ value (level + 1) x (items level xs rest))
  object_nil : ∀ level rest, value level (.object []) rest = '\x7b' :: '\x7d' :: rest
  object_cons : ∀ level name v ms rest, value level (.object ((name, v) :: ms)) rest =
    '\x7b' :: (line (level + 1) ++
      quoted name (':' :: (gap ++ value (level + 1) v (members level ms rest))))
  items_nil : ∀ level rest, items level [] rest = line level ++ ']' :: rest
  items_cons : ∀ level x xs rest, items level (x :: xs) rest =
    ',' :: (line (level + 1) ++ value (level + 1) x (items level xs rest))
  members_nil : ∀ level rest, members level [] rest = line level ++ '\x7d' :: rest
  members_cons : ∀ level name v ms rest, members level ((name, v) :: ms) rest =
    ',' :: (line (level + 1) ++
      quoted name (':' :: (gap ++ value (level + 1) v (members level ms rest))))

namespace Layout

def compact : Layout where
  line _ := []
  gap := []
  line_blank := by simp
  gap_blank := by simp
  value _ := compactOnto
  items _ := compactItems
  members _ := compactMembers
  scalar _ _ _ := rfl
  array_nil _ _ := rfl
  array_cons _ _ _ _ := rfl
  object_nil _ _ := rfl
  object_cons _ _ _ _ _ := rfl
  items_nil _ _ := rfl
  items_cons _ _ _ _ := rfl
  members_nil _ _ := rfl
  members_cons _ _ _ _ _ := rfl

def indented : Layout where
  line level := newline level []
  gap := [' ']
  line_blank level := by
    refine List.forall_mem_cons.mpr ⟨by decide, fun c hc => ?_⟩
    rw [List.append_nil] at hc
    rw [List.eq_of_mem_replicate hc]
    decide
  gap_blank := forall_mem_of_all (by decide)
  value := prettyOnto
  items := prettyItems
  members := prettyMembers
  scalar _ s _ := by cases s <;> rfl
  array_nil _ _ := rfl
  array_cons _ _ _ _ := by simp [prettyOnto, newline]
  object_nil _ _ := rfl
  object_cons _ _ _ _ _ := by simp [prettyOnto, newline]
  items_nil _ _ := by simp [prettyItems, newline]
  items_cons _ _ _ _ := by simp [prettyItems, newline]
  members_nil _ _ := by simp [prettyMembers, newline]
  members_cons _ _ _ _ _ := by simp [prettyMembers, newline]

variable (l : Layout)

theorem delimited_line (level : Nat) {c : Char} (hc : c = ']' ∨ c = '\x7d') (rest : List Char) :
    Delimited (l.line level ++ c :: rest) := by
  cases hline : l.line level with
  | nil => exact delimited_cons (Or.inr (Or.inr hc)) rest
  | cons b blanks =>
    have hb : isBlank b := l.line_blank level b (by simp [hline])
    exact delimited_cons (Or.inl hb) _

theorem delimited_items (level : Nat) (xs : List Json) (rest : List Char) :
    Delimited (l.items level xs rest) := by
  cases xs with
  | nil =>
    rw [l.items_nil]
    exact l.delimited_line level (Or.inl rfl) rest
  | cons x xs =>
    rw [l.items_cons]
    exact delimited_cons (by decide) _

theorem delimited_members (level : Nat) (ms : List (String × Json)) (rest : List Char) :
    Delimited (l.members level ms rest) := by
  cases ms with
  | nil =>
    rw [l.members_nil]
    exact l.delimited_line level (Or.inr rfl) rest
  | cons m ms =>
    rw [l.members_cons]
    exact delimited_cons (by decide) _

def ReadsBack (v : Json) : Prop :=
  ∀ level rest, Delimited rest → Reads v (l.value level v rest) rest

variable {l}

theorem items_read {xs : List Json} (h : ∀ x ∈ xs, l.ReadsBack x) (level : Nat)
    (rest : List Char) : ∃ nodes n, ItemsReadAs xs (l.items level xs rest) rest nodes n := by
  induction xs with
  | nil =>
    rw [l.items_nil]
    exact ⟨_, _, Json.items_nil (l.line_blank level)⟩
  | cons x xs ih =>
    obtain ⟨hx, hxs⟩ := List.forall_mem_cons.mp h
    obtain ⟨nodes, n, hitems⟩ := ih hxs
    obtain ⟨c, cs, node, k, htext, hread⟩ := hx (level + 1) _ (l.delimited_items level xs rest)
    rw [l.items_cons, htext]
    exact ⟨_, _, Json.items_cons hread hitems (l.line_blank _)⟩

theorem members_read {ms : List (String × Json)} (h : ∀ m ∈ ms, l.ReadsBack m.2) (level : Nat)
    (rest : List Char) : ∃ nodes n, MembersReadAs ms (l.members level ms rest) rest nodes n := by
  induction ms with
  | nil =>
    rw [l.members_nil]
    exact ⟨_, _, Json.members_nil (l.line_blank level)⟩
  | cons m ms ih =>
    obtain ⟨hm, hms⟩ := List.forall_mem_cons.mp h
    obtain ⟨nodes, n, hmembers⟩ := ih hms
    obtain ⟨c, cs, node, k, htext, hread⟩ := hm (level + 1) _ (l.delimited_members level ms rest)
    rw [l.members_cons, htext]
    exact ⟨_, _, Json.members_cons hread hmembers (l.line_blank _) l.gap_blank⟩

/-- Values whose numbers can be read are read back from any layout. -/
theorem readsBack {v : Json} (hv : v.Storable) : l.ReadsBack v := by
  have hscalar : ∀ s : Scalar, s.toJson.Storable → l.ReadsBack s.toJson := by
    intro s hs level rest hr
    rw [l.scalar]
    exact scalar_reads hs hr
  induction v using Json.induction with
  | null => exact hscalar .null hv
  | bool b => exact hscalar (.bool b) hv
  | int n => exact hscalar (.int n) hv
  | float x => exact hscalar (.float x) hv
  | string s => exact hscalar (.string s) hv
  | array xs ih =>
    have hback : ∀ x ∈ xs, l.ReadsBack x :=
      fun x hx => ih x hx (storableWith_array_iff.mp hv x hx)
    intro level rest hr
    cases xs with
    | nil =>
      rw [l.array_nil]
      exact ⟨_, _, _, _, rfl, Json.array_nil⟩
    | cons x xs =>
      obtain ⟨hx, hxs⟩ := List.forall_mem_cons.mp hback
      obtain ⟨nodes, n, hitems⟩ := items_read hxs level rest
      obtain ⟨c, cs, node, k, htext, hread⟩ := hx (level + 1) _ (l.delimited_items level xs rest)
      rw [l.array_cons, htext]
      exact ⟨_, _, _, _, rfl, Json.array_cons hread hitems (l.line_blank _)⟩
  | object ms ih =>
    have hback : ∀ m ∈ ms, l.ReadsBack m.2 :=
      fun m hm => ih m hm (storableWith_object_iff.mp hv m hm)
    intro level rest hr
    cases ms with
    | nil =>
      rw [l.object_nil]
      exact ⟨_, _, _, _, rfl, Json.object_nil⟩
    | cons m ms =>
      obtain ⟨hm, hms⟩ := List.forall_mem_cons.mp hback
      obtain ⟨nodes, n, hmembers⟩ := members_read hms level rest
      obtain ⟨c, cs, node, k, htext, hread⟩ := hm (level + 1) _ (l.delimited_members level ms rest)
      rw [l.object_cons, htext]
      exact ⟨_, _, _, _, rfl, Json.object_cons hread hmembers (l.line_blank _) l.gap_blank⟩

end Layout

theorem ofText?_compactChars {v : Json} (hv : v.Storable) :
    (v.depth ≤ maxDepth → ofText? v.compactChars = .ok v.reread) ∧
      (maxDepth < v.depth → ∃ t, ofText? v.compactChars = .error ⟨.tooDeep, .behindNext t⟩ ∧
        firstTooDeep .outside maxDepth v.compactChars = some t) :=
  ofText?_of_reads (Layout.compact.readsBack hv 0 [] delimited_nil)

theorem ofText?_pretty {v : Json} (hv : v.Storable) (hdepth : v.depth ≤ maxDepth) :
    ofText? v.pretty.toList = .ok v.reread := by
  rw [pretty, String.toList_ofList]
  exact (ofText?_of_reads (Layout.indented.readsBack hv 0 [] delimited_nil)).1 hdepth

end ModelSchema.Json
