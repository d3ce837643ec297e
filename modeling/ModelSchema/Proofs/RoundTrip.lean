import ModelSchema.Proofs.Nesting
import ModelSchema.Proofs.Values

namespace ModelSchema.Json

namespace Step

def resume (fuel : Nat) : Step → Scanned
  | .go frames expected rest => scanFrom fuel frames expected rest
  | .stop scanned => scanned

def Leads (n : Nat) (s s' : Step) : Prop :=
  ∀ fuel, s.resume (n + fuel) = s'.resume fuel

variable {m n : Nat} {s s' s'' : Step}

theorem Leads.refl (s : Step) : Leads 0 s s :=
  fun fuel => by rw [Nat.zero_add]

theorem Leads.trans (h : Leads m s s') (h' : Leads n s' s'') : Leads (m + n) s s'' :=
  fun fuel => by rw [Nat.add_assoc, h, h']

theorem leads_take (frames : List Frame) (expected : Expected) (text : List Char) :
    Leads 1 (.go frames expected text) (take expected frames (skipBlank text)) := by
  intro fuel
  rw [Nat.add_comm]
  show (match take expected frames (skipBlank text) with | .go _ _ _ => _ | .stop _ => _) = _
  cases take expected frames (skipBlank text) <;> rfl

end Step

open Step

theorem skipBlank_append {blanks : List Char} (hblanks : ∀ c ∈ blanks, isBlank c) {c : Char}
    (hc : isBlank c = false) (cs : List Char) : skipBlank (blanks ++ c :: cs) = c :: cs := by
  have hstop : ¬isBlank c = true := by simp [hc]
  rw [skipBlank, List.dropWhile_append_of_pos hblanks, List.dropWhile_cons_of_neg hstop]

/-- The text `c :: cs` is read as `node` in `n` steps, up to `rest`, and the node stands for `v`. -/
structure ReadAs (v : Json) (c : Char) (cs rest : List Char) (node : Node) (n : Nat) : Prop where
  begins : isBlank c = false ∧ c ≠ ']'
  short : n + rest.length ≤ cs.length
  steps : ∀ frames, Leads n (value frames c cs) (deliver frames node rest)
  answers : Answers v.depth v.reread (fun limit => node.toJson limit) (c :: cs) rest

structure ItemsReadAs (xs : List Json) (text rest : List Char) (nodes : List Node) (n : Nat) :
    Prop where
  short : n + rest.length ≤ text.length
  steps : ∀ start done frames, Leads n (.go (.array start done :: frames) .comma text)
    (deliver frames (.array start (done.reverse ++ nodes) (.closed (.here rest))) rest)
  answers : Answers (itemsDepth xs) (rereadItems xs) (fun limit => itemsToJson limit nodes) text
    (']' :: rest)

structure MembersReadAs (ms : List (String × Json)) (text rest : List Char)
    (nodes : List (Key × Node)) (n : Nat) : Prop where
  short : n + rest.length ≤ text.length
  steps : ∀ start done frames, Leads n (.go (.object start done :: frames) .comma text)
    (deliver frames (.object start (done.reverse ++ nodes) (.closed (.here rest))) rest)
  answers : Answers (membersDepth ms) (rereadMembers ms) (fun limit => membersToJson limit nodes)
    text ('\x7d' :: rest)

theorem blank_not_structural {blanks : List Char} (hblanks : ∀ c ∈ blanks, isBlank c) :
    ∀ c ∈ blanks, c ∉ structural := by
  intro c hc hmem
  have hall : ∀ c ∈ structural, ¬isBlank c := forall_mem_of_all (by decide)
  exact hall c hmem (hblanks c hc)

variable {blanks cs mid rest : List Char} {c : Char} {node : Node} {k n : Nat}

section Arrays

variable {x : Json} {xs : List Json} {nodes : List Node}

theorem take_item {expected : Expected} (h : expected = .firstItem ∨ expected = .nextItem)
    (hc : c ≠ ']') (start : Mark) (done : List Node) (frames : List Frame) (cs : List Char) :
    take expected (.array start done :: frames) (c :: cs) =
      value (.array start done :: frames) c cs := by
  obtain rfl | rfl := h <;> simp [take, hc]

theorem steps_item (hx : ReadAs x c cs mid node k) (hxs : ItemsReadAs xs mid rest nodes n)
    {expected : Expected} (hexpected : expected = .firstItem ∨ expected = .nextItem)
    (hblanks : ∀ c ∈ blanks, isBlank c) (start : Mark) (done : List Node) (frames : List Frame) :
    Leads (1 + (k + n)) (.go (.array start done :: frames) expected (blanks ++ c :: cs))
      (deliver frames (.array start (done.reverse ++ node :: nodes) (.closed (.here rest)))
        rest) := by
  have hstep := leads_take (.array start done :: frames) expected (blanks ++ c :: cs)
  rw [skipBlank_append hblanks hx.begins.1, take_item hexpected hx.begins.2] at hstep
  have hitems := hxs.steps start (node :: done) frames
  rw [List.reverse_cons, List.append_assoc] at hitems
  exact hstep.trans ((hx.steps _).trans hitems)

theorem answers_item (hx : ReadAs x c cs mid node k) (hxs : ItemsReadAs xs mid rest nodes n)
    (hblanks : ∀ c ∈ blanks, isBlank c) :
    Answers (itemsDepth (x :: xs)) (rereadItems (x :: xs))
      (fun limit => itemsToJson limit (node :: nodes)) (blanks ++ c :: cs) (']' :: rest) :=
  (hx.answers.seq hxs.answers List.cons).skip fun room =>
    firstTooDeep_append (blank_not_structural hblanks) room _

theorem items_nil (hblanks : ∀ c ∈ blanks, isBlank c) :
    ItemsReadAs [] (blanks ++ ']' :: rest) rest [] 1 where
  short := by
    rw [List.length_append, List.length_cons]
    omega
  steps start done frames := by
    have hstep := leads_take (.array start done :: frames) .comma (blanks ++ ']' :: rest)
    rw [skipBlank_append hblanks (by decide)] at hstep
    rw [List.append_nil]
    exact hstep
  answers := .flat [] fun room => firstTooDeep_append (blank_not_structural hblanks) room _

theorem items_cons (hx : ReadAs x c cs mid node k) (hxs : ItemsReadAs xs mid rest nodes n)
    (hblanks : ∀ c ∈ blanks, isBlank c) :
    ItemsReadAs (x :: xs) (',' :: (blanks ++ c :: cs)) rest (node :: nodes)
      (1 + (1 + (k + n))) where
  short := by
    have := hx.short
    have := hxs.short
    rw [List.length_cons, List.length_append, List.length_cons]
    omega
  steps start done frames :=
    (leads_take (.array start done :: frames) .comma (',' :: (blanks ++ c :: cs))).trans
      (steps_item hx hxs (Or.inr rfl) hblanks start done frames)
  answers := (answers_item hx hxs hblanks).skip fun _ => rfl

theorem array_nil : ReadAs (.array []) '[' (']' :: rest) rest
    (.array (.here ('[' :: ']' :: rest)) [] (.closed (.here rest))) 1 where
  begins := by decide
  short := by
    rw [List.length_cons]
    omega
  steps frames := leads_take _ .firstItem (']' :: rest)
  answers := (Answers.flat [] fun _ => rfl).nest (Or.inl rfl) (Or.inl rfl) Json.array

theorem array_cons (hx : ReadAs x c cs mid node k) (hxs : ItemsReadAs xs mid rest nodes n)
    (hblanks : ∀ c ∈ blanks, isBlank c) :
    ReadAs (.array (x :: xs)) '[' (blanks ++ c :: cs) rest
      (.array (.here ('[' :: (blanks ++ c :: cs))) (node :: nodes) (.closed (.here rest)))
      (1 + (k + n)) where
  begins := by decide
  short := by
    have := hx.short
    have := hxs.short
    rw [List.length_append, List.length_cons]
    omega
  steps frames := steps_item hx hxs (Or.inl rfl) hblanks _ [] frames
  answers := (answers_item hx hxs hblanks).nest (Or.inl rfl) (Or.inl rfl) Json.array

end Arrays

section Objects

variable {name : String} {v : Json} {ms : List (String × Json)} {nodes : List (Key × Node)}
  {gap : List Char}

theorem take_key {expected : Expected} (h : expected = .firstKey ∨ expected = .nextKey)
    (start : Mark) (done : List (Key × Node)) (frames : List Frame) (name : String)
    (text : List Char) :
    take expected (.object start done :: frames) (quoted name (':' :: text)) =
      .go (.member start done ⟨name, .here (':' :: text), none⟩ :: frames) .value text := by
  have hkey : key start done frames (escaped name.toList ('\"' :: ':' :: text)) =
      .go (.member start done ⟨name, .here (':' :: text), none⟩ :: frames) .value text := by
    rw [key, readString_escaped]
    rfl
  obtain rfl | rfl := h <;> exact hkey

theorem steps_member (hv : ReadAs v c cs mid node k) (hms : MembersReadAs ms mid rest nodes n)
    {expected : Expected} (hexpected : expected = .firstKey ∨ expected = .nextKey)
    (hblanks : ∀ c ∈ blanks, isBlank c) (hgap : ∀ c ∈ gap, isBlank c) (start : Mark)
    (done : List (Key × Node)) (frames : List Frame) :
    Leads (1 + (1 + (k + n)))
      (.go (.object start done :: frames) expected
        (blanks ++ quoted name (':' :: (gap ++ c :: cs))))
      (deliver frames (.object start
        (done.reverse ++ (⟨name, .here (':' :: (gap ++ c :: cs)), none⟩, node) :: nodes)
        (.closed (.here rest))) rest) := by
  have hkey := leads_take (.object start done :: frames) expected
    (blanks ++ quoted name (':' :: (gap ++ c :: cs)))
  rw [quoted_eq, skipBlank_append hblanks (by decide), ← quoted_eq, take_key hexpected] at hkey
  have hvalue := leads_take
    (.member start done ⟨name, .here (':' :: (gap ++ c :: cs)), none⟩ :: frames) .value
    (gap ++ c :: cs)
  rw [skipBlank_append hgap hv.begins.1] at hvalue
  have hmembers := hms.steps start
    ((⟨name, .here (':' :: (gap ++ c :: cs)), none⟩, node) :: done) frames
  rw [List.reverse_cons, List.append_assoc] at hmembers
  exact hkey.trans (hvalue.trans ((hv.steps _).trans hmembers))

theorem length_le_quoted (name : String) (text : List Char) :
    text.length + 2 ≤ (quoted name text).length := by
  rw [quoted_eq]
  induction name.toList with
  | nil => simp [escaped]
  | cons c cs ih =>
    rw [escaped_cons]
    simp only [List.length_cons, List.length_append] at ih ⊢
    omega

theorem answers_member (hv : ReadAs v c cs mid node k) (hms : MembersReadAs ms mid rest nodes n)
    (hblanks : ∀ c ∈ blanks, isBlank c) (hgap : ∀ c ∈ gap, isBlank c) (stop : Mark) :
    Answers (membersDepth ((name, v) :: ms)) (rereadMembers ((name, v) :: ms))
      (fun limit => membersToJson limit ((⟨name, stop, none⟩, node) :: nodes))
      (blanks ++ quoted name (':' :: (gap ++ c :: cs))) ('\x7d' :: rest) := by
  refine (hv.answers.seq hms.answers fun w ws => (name, w) :: ws).skip fun room => ?_
  rw [firstTooDeep_append (blank_not_structural hblanks), firstTooDeep_quoted]
  exact firstTooDeep_append (blank_not_structural hgap) room _

theorem members_nil (hblanks : ∀ c ∈ blanks, isBlank c) :
    MembersReadAs [] (blanks ++ '\x7d' :: rest) rest [] 1 where
  short := by
    rw [List.length_append, List.length_cons]
    omega
  steps start done frames := by
    have hstep := leads_take (.object start done :: frames) .comma (blanks ++ '\x7d' :: rest)
    rw [skipBlank_append hblanks (by decide)] at hstep
    rw [List.append_nil]
    exact hstep
  answers := .flat [] fun room => firstTooDeep_append (blank_not_structural hblanks) room _

theorem members_cons (hv : ReadAs v c cs mid node k) (hms : MembersReadAs ms mid rest nodes n)
    (hblanks : ∀ c ∈ blanks, isBlank c) (hgap : ∀ c ∈ gap, isBlank c) :
    MembersReadAs ((name, v) :: ms) (',' :: (blanks ++ quoted name (':' :: (gap ++ c :: cs)))) rest
      ((⟨name, .here (':' :: (gap ++ c :: cs)), none⟩, node) :: nodes)
      (1 + (1 + (1 + (k + n)))) where
  short := by
    have := hv.short
    have := hms.short
    have := length_le_quoted name (':' :: (gap ++ c :: cs))
    simp only [List.length_cons, List.length_append] at this ⊢
    omega
  steps start done frames :=
    (leads_take (.object start done :: frames) .comma (',' :: _)).trans
      (steps_member hv hms (Or.inr rfl) hblanks hgap start done frames)
  answers := (answers_member hv hms hblanks hgap _).skip fun _ => rfl

theorem object_nil : ReadAs (.object []) '\x7b' ('\x7d' :: rest) rest
    (.object (.here ('\x7b' :: '\x7d' :: rest)) [] (.closed (.here rest))) 1 where
  begins := by decide
  short := by
    rw [List.length_cons]
    omega
  steps frames := leads_take _ .firstKey ('\x7d' :: rest)
  answers := (Answers.flat [] fun _ => rfl).nest (Or.inr rfl) (Or.inr rfl)
    fun ms => Json.object (Entries.ofList ms)

theorem object_cons (hv : ReadAs v c cs mid node k) (hms : MembersReadAs ms mid rest nodes n)
    (hblanks : ∀ c ∈ blanks, isBlank c) (hgap : ∀ c ∈ gap, isBlank c) :
    ReadAs (.object ((name, v) :: ms)) '\x7b' (blanks ++ quoted name (':' :: (gap ++ c :: cs))) rest
      (.object (.here ('\x7b' :: (blanks ++ quoted name (':' :: (gap ++ c :: cs)))))
        ((⟨name, .here (':' :: (gap ++ c :: cs)), none⟩, node) :: nodes) (.closed (.here rest)))
      (1 + (1 + (k + n))) where
  begins := by decide
  short := by
    have := hv.short
    have := hms.short
    have := length_le_quoted name (':' :: (gap ++ c :: cs))
    simp only [List.length_cons, List.length_append] at this ⊢
    omega
  steps frames := steps_member hv hms (Or.inl rfl) hblanks hgap _ [] frames
  answers := (answers_member hv hms hblanks hgap _).nest (Or.inr rfl) (Or.inr rfl)
    fun ms => Json.object (Entries.ofList ms)

end Objects

theorem first_of_readScalar {c : Char} {cs rest : List Char} {s : Scalar}
    (h : readScalar c cs = .whole s rest) :
    (isBlank c = false ∧ c ≠ ']') ∧ c ≠ '[' ∧ c ≠ '\x7b' := by
  refine ⟨⟨?_, ?_⟩, ?_, ?_⟩
  · by_contra hblank
    simp only [isBlank, Bool.not_eq_false, Bool.or_eq_true, decide_eq_true_eq] at hblank
    obtain ((rfl | rfl) | rfl) | rfl := hblank <;> cases h
  all_goals
    rintro rfl
    cases h

theorem scalar_read {c : Char} {cs rest : List Char} {s t : Scalar}
    (h : readScalar c cs = .whole t rest) (ht : t.toJson = s.toJson.reread)
    (hshort : rest.length ≤ cs.length)
    (hflat : ∀ room, firstTooDeep .outside room (c :: cs) = firstTooDeep .outside room rest) :
    ReadAs s.toJson c cs rest (.leaf t (.here (c :: cs)) (.here rest)) 0 where
  begins := (first_of_readScalar h).1
  short := by omega
  steps frames := by
    obtain ⟨-, harray, hobject⟩ := first_of_readScalar h
    rw [value, if_neg harray, if_neg hobject, h]
    exact .refl _
  answers := by
    have hdepth : s.toJson.depth = 0 := by cases s <;> rfl
    rw [hdepth, ← ht]
    exact .flat _ hflat

def Reads (v : Json) (text rest : List Char) : Prop :=
  ∃ c cs node n, text = c :: cs ∧ ReadAs v c cs rest node n

theorem reads_text {l rest : List Char} {s t : Scalar} (hl : l ≠ [])
    (hplain : ∀ c ∈ l, c ∉ structural) (ht : t.toJson = s.toJson.reread)
    (hread : ∀ {c cs}, l ++ rest = c :: cs → readScalar c cs = .whole t rest) :
    Reads s.toJson (l ++ rest) rest := by
  obtain ⟨c, cs, rfl⟩ := List.exists_cons_of_ne_nil hl
  refine ⟨c, cs ++ rest, _, _, rfl, scalar_read (hread rfl) ht ?_ ?_⟩
  · rw [List.length_append]
    omega
  · exact fun room => firstTooDeep_append hplain room rest

theorem scalar_reads {s : Scalar} (hs : s.toJson.Storable) {rest : List Char}
    (hr : Delimited rest) : Reads s.toJson (compactOnto s.toJson rest) rest := by
  have hplain : ∀ {c}, IsNumeric c → c ∉ structural := by
    intro c hc hmem
    have hall : ∀ c ∈ structural, ¬IsNumeric c := forall_mem_of_all (by decide)
    exact hall c hmem hc
  cases s with
  | null =>
    refine reads_text (l := ['n', 'u', 'l', 'l']) (t := .null) (by decide)
      (forall_mem_of_all (by decide)) rfl ?_
    rintro _ _ ⟨⟩
    rfl
  | bool b =>
    cases b with
    | true =>
      refine reads_text (l := ['t', 'r', 'u', 'e']) (t := .bool true) (by decide)
        (forall_mem_of_all (by decide)) rfl ?_
      rintro _ _ ⟨⟩
      rfl
    | false =>
      refine reads_text (l := ['f', 'a', 'l', 's', 'e']) (t := .bool false) (by decide)
        (forall_mem_of_all (by decide)) rfl ?_
      rintro _ _ ⟨⟩
      rfl
  | int n =>
    cases hs with
    | int low high =>
      exact reads_text (intText_ne_nil n) (fun c hc => hplain (isNumeric_of_mem_intText hc)) rfl
        (readScalar_intText low high hr)
  | float x =>
    exact reads_text (text_ne_nil x) (fun c hc => hplain (isNumeric_of_mem_text c hc)) rfl
      (readScalar_text x hr)
  | string t =>
    refine ⟨_, _, _, _, quoted_eq t rest,
      scalar_read (t := .string t) ?_ rfl ?_ fun room => firstTooDeep_quoted room t rest⟩
    · show (readString _).map Scalar.string = _
      rw [readString_escaped]
      rfl
    · have := length_le_quoted t rest
      rw [quoted_eq, List.length_cons] at this
      omega

theorem scan_of_reads {v : Json} {text : List Char} (h : Reads v text []) :
    ∃ node, scan text = ⟨node, none⟩ ∧
      Answers v.depth v.reread (fun limit => node.toJson limit) text [] := by
  obtain ⟨c, cs, node, n, rfl, hread⟩ := h
  refine ⟨node, ?_, hread.answers⟩
  have hstart := leads_take [] .value (c :: cs)
  have hblank : ∀ c ∈ ([] : List Char), isBlank c := by simp
  have hskip := skipBlank_append hblank hread.begins.1 cs
  rw [List.nil_append] at hskip
  rw [hskip] at hstart
  have hsteps := hstart.trans (hread.steps [])
  obtain ⟨fuel, hfuel⟩ : ∃ fuel, (c :: cs).length + 1 = 1 + n + fuel := by
    have := hread.short
    exact Nat.exists_eq_add_of_le (by rw [List.length_cons]; omega)
  rw [scan, hfuel]
  exact hsteps fuel

/-- A text of a value gives what is left of the value, or names the first bracket that is too
deep. -/
theorem ofText?_of_reads {v : Json} {text : List Char} (h : Reads v text []) :
    (v.depth ≤ maxDepth → ofText? text = .ok v.reread) ∧
      (maxDepth < v.depth → ∃ t, ofText? text = .error ⟨.tooDeep, .behindNext t⟩ ∧
        firstTooDeep .outside maxDepth text = some t) := by
  obtain ⟨node, hscan, hanswers⟩ := scan_of_reads h
  constructor
  · intro hdepth
    have hvalue := (hanswers.fits maxDepth hdepth).1
    rw [ofText?, hscan, hvalue]
    rfl
  · intro hdepth
    obtain ⟨t, hvalue, ht⟩ := hanswers.exceeds maxDepth hdepth
    rw [ofText?, hscan, hvalue]
    exact ⟨t, rfl, ht⟩

end ModelSchema.Json
