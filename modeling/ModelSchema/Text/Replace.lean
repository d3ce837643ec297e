namespace ModelSchema.Text

def startsWith? : List Char → List Char → Option (List Char)
  | [], text => some text
  | _ :: _, [] => none
  | p :: ps, c :: cs => if p = c then startsWith? ps cs else none

theorem eq_append_of_startsWith? {p text rest : List Char} (h : startsWith? p text = some rest) :
    text = p ++ rest := by
  induction p generalizing text with
  | nil => simpa [startsWith?] using h
  | cons a p ih =>
    cases text with
    | nil => simp [startsWith?] at h
    | cons c cs =>
      simp only [startsWith?] at h
      split at h
      · next e => rw [e, ih h, List.cons_append]
      · simp at h

/-- Replaces each occurrence of `pattern`, from left to right and never looking back into what
was written. `done` holds the text so far, its last character first. An empty pattern occurs
nowhere. -/
def replaceFrom (pattern replacement : List Char) (done : List Char) : List Char → List Char
  | [] => done.reverse
  | c :: cs =>
    match _found : startsWith? pattern (c :: cs) with
    | some rest =>
      if pattern = [] then replaceFrom pattern replacement (c :: done) cs
      else replaceFrom pattern replacement (replacement.reverse ++ done) rest
    | none => replaceFrom pattern replacement (c :: done) cs
termination_by text => text.length
decreasing_by
  · simp
  · have e := congrArg List.length (eq_append_of_startsWith? _found)
    have p : 0 < pattern.length := List.length_pos_iff.mpr ‹_›
    simp only [List.length_cons, List.length_append] at e ⊢
    omega
  · simp

def replaceAll (pattern replacement text : List Char) : List Char :=
  replaceFrom pattern replacement [] text

def contains (pattern : List Char) : List Char → Bool
  | [] => (startsWith? pattern []).isSome
  | c :: cs => (startsWith? pattern (c :: cs)).isSome || contains pattern cs

end ModelSchema.Text
