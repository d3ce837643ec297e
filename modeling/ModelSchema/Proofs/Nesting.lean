import ModelSchema.Proofs.Numbers
import ModelSchema.Proofs.Strings

namespace ModelSchema.Json

inductive Place where
  | outside
  | inside
  | escaped

/-- The text from the bracket on that opens one level more than there is room for. Brackets in
strings do not count. -/
def firstTooDeep : Place → Nat → List Char → Option (List Char)
  | _, _, [] => none
  | .escaped, room, _ :: cs => firstTooDeep .inside room cs
  | .inside, room, c :: cs =>
    if c = '\"' then firstTooDeep .outside room cs
    else if c = '\\' then firstTooDeep .escaped room cs
    else firstTooDeep .inside room cs
  | .outside, room, c :: cs =>
    if c = '\"' then firstTooDeep .inside room cs
    else if c = '[' ∨ c = '\x7b' then
      if room = 0 then some (c :: cs) else firstTooDeep .outside (room - 1) cs
    else if c = ']' ∨ c = '\x7d' then firstTooDeep .outside (room + 1) cs
    else firstTooDeep .outside room cs

def structural : List Char :=
  ['\"', '[', '\x7b', ']', '\x7d']

theorem firstTooDeep_append {l : List Char} (hl : ∀ c ∈ l, c ∉ structural) (room : Nat)
    (text : List Char) :
    firstTooDeep .outside room (l ++ text) = firstTooDeep .outside room text := by
  induction l with
  | nil => rfl
  | cons c l ih =>
    obtain ⟨hc, hl⟩ := List.forall_mem_cons.mp hl
    simp only [structural, List.mem_cons, List.not_mem_nil, or_false, not_or] at hc
    rw [List.cons_append, firstTooDeep, if_neg hc.1, if_neg (not_or.mpr ⟨hc.2.1, hc.2.2.1⟩),
      if_neg (not_or.mpr hc.2.2.2), ih hl]

theorem firstTooDeep_escape (room : Nat) (c : Char) (text : List Char) :
    firstTooDeep .inside room (escape c ++ text) = firstTooDeep .inside room text := by
  generalize hwritten : escape c = written
  cases hwritten ▸ escape_written c with
  | bare quote backslash control => simp [firstTooDeep, quote, backslash]
  | letter => rfl
  | number plain value control =>
    have hquote := fun {l : Char} (h : l.isAlphanum) => (ne_of_isAlphanum h (c := '\"') rfl).symm
    have hbackslash := fun {l : Char} (h : l.isAlphanum) =>
      (ne_of_isAlphanum h (c := '\\') rfl).symm
    simp [firstTooDeep, hquote plain.1, hquote plain.2, hbackslash plain.1, hbackslash plain.2]

theorem firstTooDeep_quoted (room : Nat) (s : String) (rest : List Char) :
    firstTooDeep .outside room (quoted s rest) = firstTooDeep .outside room rest := by
  rw [quoted_eq]
  show firstTooDeep .inside room _ = _
  induction s.toList with
  | nil => rfl
  | cons c cs ih => rw [escaped_cons, firstTooDeep_escape, ih]

theorem firstTooDeep_suffix {p : Place} {room : Nat} {text t : List Char}
    (h : firstTooDeep p room text = some t) :
    ∃ before c after, text = before ++ c :: after ∧ t = c :: after ∧ (c = '[' ∨ c = '\x7b') := by
  induction text generalizing p room with
  | nil => cases p <;> cases h
  | cons c cs ih =>
    have hlater : ∀ {p room}, firstTooDeep p room cs = some t → ∃ before b after,
        c :: cs = before ++ b :: after ∧ t = b :: after ∧ (b = '[' ∨ b = '\x7b') := by
      intro p room h
      obtain ⟨before, b, after, rfl, ht⟩ := ih h
      exact ⟨c :: before, b, after, rfl, ht⟩
    cases p with
    | escaped => exact hlater h
    | inside =>
      rw [firstTooDeep] at h
      split_ifs at h <;> exact hlater h
    | outside =>
      rw [firstTooDeep] at h
      split_ifs at h with _ hopen
      · exact hlater h
      · exact ⟨[], c, cs, rfl, (Option.some.inj h).symm, hopen⟩
      · exact hlater h
      · exact hlater h
      · exact hlater h

variable {α β γ : Type}

/-- What is read of a text, up to `rest`, nests `depth` deep: with room for that it comes to
`value`, and with less it comes to the bracket that is too deep. -/
structure Answers (depth : Nat) (value : α) (answer : Limit → Except Fault α)
    (text rest : List Char) : Prop where
  fits : ∀ room, depth ≤ room → answer (some room) = .ok value ∧
    firstTooDeep .outside room text = firstTooDeep .outside room rest
  exceeds : ∀ room < depth, ∃ t, answer (some room) = .error ⟨.tooDeep, .behindNext t⟩ ∧
    firstTooDeep .outside room text = some t

namespace Answers

variable {depth depth' : Nat} {value : α} {value' : β} {answer : Limit → Except Fault α}
  {answer' : Limit → Except Fault β} {text text' rest : List Char}

theorem flat (value : α)
    (htext : ∀ room, firstTooDeep .outside room text = firstTooDeep .outside room rest) :
    Answers 0 value (fun _ => .ok value) text rest where
  fits room _ := ⟨rfl, htext room⟩
  exceeds _ h := absurd h (Nat.not_lt_zero _)

theorem skip (h : Answers depth value answer text rest)
    (htext : ∀ room, firstTooDeep .outside room text' = firstTooDeep .outside room text) :
    Answers depth value answer text' rest where
  fits room hroom := ⟨(h.fits room hroom).1, (htext room).trans (h.fits room hroom).2⟩
  exceeds room hroom := by
    obtain ⟨t, hanswer, ht⟩ := h.exceeds room hroom
    exact ⟨t, hanswer, (htext room).trans ht⟩

theorem seq (h : Answers depth value answer text text')
    (h' : Answers depth' value' answer' text' rest) (join : α → β → γ) :
    Answers (max depth depth') (join value value')
      (fun limit => do return join (← answer limit) (← answer' limit)) text rest where
  fits room hroom := by
    obtain ⟨hdepth, hdepth'⟩ := Nat.max_le.mp hroom
    obtain ⟨hanswer, htext⟩ := h.fits room hdepth
    obtain ⟨hanswer', htext'⟩ := h'.fits room hdepth'
    rw [hanswer, hanswer']
    exact ⟨rfl, htext.trans htext'⟩
  exceeds room hroom := by
    by_cases hdepth : depth ≤ room
    · obtain ⟨hanswer, htext⟩ := h.fits room hdepth
      obtain ⟨t, hanswer', ht⟩ := h'.exceeds room (by omega)
      rw [hanswer, hanswer']
      exact ⟨t, rfl, htext.trans ht⟩
    · obtain ⟨t, hanswer, ht⟩ := h.exceeds room (by omega)
      rw [hanswer]
      exact ⟨t, rfl, ht⟩

theorem nest {left right : Char} (hleft : left = '[' ∨ left = '\x7b')
    (hright : right = ']' ∨ right = '\x7d')
    (h : Answers depth value answer text (right :: rest)) (wrap : α → β) :
    Answers (depth + 1) (wrap value)
      (fun limit => do
        limit.check (.here (left :: text))
        return wrap (← answer limit.inside)) (left :: text) rest := by
  have hopen : ∀ room, firstTooDeep .outside (room + 1) (left :: text) =
      firstTooDeep .outside room text := by
    intro room
    obtain rfl | rfl := hleft <;> rfl
  have hclose : ∀ room, firstTooDeep .outside room (right :: rest) =
      firstTooDeep .outside (room + 1) rest := by
    intro room
    obtain rfl | rfl := hright <;> rfl
  constructor
  · rintro (_ | room) hroom
    · exact absurd hroom (Nat.not_succ_le_zero _)
    · obtain ⟨hanswer, htext⟩ := h.fits room (Nat.le_of_succ_le_succ hroom)
      refine ⟨?_, (hopen room).trans (htext.trans (hclose room))⟩
      show (answer (some room) >>= _) = _
      rw [hanswer]
      rfl
  · rintro (_ | room) hroom
    · refine ⟨left :: text, rfl, ?_⟩
      obtain rfl | rfl := hleft <;> rfl
    · obtain ⟨t, hanswer, ht⟩ := h.exceeds room (Nat.lt_of_succ_lt_succ hroom)
      refine ⟨t, ?_, (hopen room).trans ht⟩
      show (answer (some room) >>= _) = _
      rw [hanswer]
      rfl

end Answers

end ModelSchema.Json
