import ModelSchema.Json.Quoted
import ModelSchema.Json.Scan

namespace ModelSchema.Json

-- Deciding the statement itself may go through all characters.
theorem forall_mem_of_all {l : List Char} {P : Char → Prop} [DecidablePred P]
    (h : l.all (P ·) = true) : ∀ c ∈ l, P c :=
  fun c hc => of_decide_eq_true (List.all_eq_true.mp h c hc)

inductive Written (c : Char) : List Char → Prop where
  | bare (quote : c ≠ '\"') (backslash : c ≠ '\\') (control : 32 ≤ c.toNat) : Written c [c]
  | letter {l : Char} (hexadecimal : l ≠ 'u') (letter : unescape? l = some c) : Written c ['\\', l]
  | number {high low : Char} (plain : high.isAlphanum ∧ low.isAlphanum)
    (value : hexValues? ['0', '0', high, low] = some c.toNat) (control : c.toNat < 32) :
    Written c ['\\', 'u', '0', '0', high, low]

theorem written_of_shortEscape {c l : Char} (h : shortEscape? c = some l) :
    Written c ['\\', l] := by
  unfold shortEscape? at h
  repeat'
    split at h
    · subst c
      cases h
      exact .letter (by decide) rfl
  cases h

theorem escape_written (c : Char) : Written c (escape c) := by
  unfold escape
  cases h : shortEscape? c with
  | some l => exact written_of_shortEscape h
  | none =>
    dsimp only
    split
    · rename_i hcontrol
      have hplain : ∀ n < 32,
          (hexDigit (n / 16)).isAlphanum ∧ (hexDigit (n % 16)).isAlphanum := by decide
      have hvalue : ∀ n < 32,
          hexValues? ['0', '0', hexDigit (n / 16), hexDigit (n % 16)] = some n := by decide
      exact .number (hplain _ hcontrol) (hvalue _ hcontrol) hcontrol
    · refine .bare ?_ ?_ (by omega)
      · rintro rfl
        cases h
      · rintro rfl
        cases h

theorem ne_of_isAlphanum {l c : Char} (h : l.isAlphanum) (hc : c.isAlphanum = false) : c ≠ l := by
  rintro rfl
  rw [h] at hc
  cases hc

theorem quote_not_mem_escape {c : Char} (hc : c ≠ '\"') : '\"' ∉ escape c := by
  generalize hwritten : escape c = written
  cases hwritten ▸ escape_written c with
  | bare quote backslash control => simpa using Ne.symm hc
  | @letter l hexadecimal letter =>
    have hl : '\"' ≠ l := by
      rintro rfl
      exact hc (Option.some.inj letter).symm
    simpa using hl
  | number plain value control =>
    have hhigh := ne_of_isAlphanum plain.1 (by decide : '\"'.isAlphanum = false)
    have hlow := ne_of_isAlphanum plain.2 (by decide : '\"'.isAlphanum = false)
    simp [hhigh, hlow]

theorem newline_not_mem_escape (c : Char) : '\n' ∉ escape c := by
  generalize hwritten : escape c = written
  cases hwritten ▸ escape_written c with
  | bare quote backslash control =>
    have hc : '\n' ≠ c := by
      rintro rfl
      exact absurd control (by decide)
    simpa using hc
  | @letter l hexadecimal letter =>
    have hl : '\n' ≠ l := by
      rintro rfl
      cases letter
    simpa using hl
  | number plain value control =>
    have hhigh := ne_of_isAlphanum plain.1 (by decide : '\n'.isAlphanum = false)
    have hlow := ne_of_isAlphanum plain.2 (by decide : '\n'.isAlphanum = false)
    simp [hhigh, hlow]

def escaped (cs rest : List Char) : List Char :=
  cs.foldr (fun c tail => escape c ++ tail) rest

theorem quoted_eq (s : String) (rest : List Char) :
    quoted s rest = '\"' :: escaped s.toList ('\"' :: rest) :=
  rfl

theorem escaped_cons (c : Char) (cs rest : List Char) :
    escaped (c :: cs) rest = escape c ++ escaped cs rest :=
  rfl

theorem escaped_bare {cs : List Char} (h : ∀ c ∈ cs, escape c = [c]) (rest : List Char) :
    escaped cs rest = cs ++ rest := by
  induction cs with
  | nil => rfl
  | cons c cs ih =>
    obtain ⟨hc, hcs⟩ := List.forall_mem_cons.mp h
    rw [escaped_cons, hc, ih hcs]
    rfl

theorem scanString_escape (done : List Char) (c : Char) (tail : List Char) :
    scanString done (escape c ++ tail) = scanString (c :: done) tail := by
  generalize hwritten : escape c = written
  have h := hwritten ▸ escape_written c
  clear hwritten
  cases h with
  | bare quote backslash control =>
    have hcontrol : ¬c.toNat < 32 := Nat.not_lt.mpr control
    simp [scanString, backslash, hcontrol]
  | letter hexadecimal letter => simp [scanString, hexadecimal, letter]
  | number plain value control =>
    have hhigh : isHighSurrogate c.toNat = false := by
      unfold isHighSurrogate
      simp only [Bool.and_eq_false_iff, decide_eq_false_iff_not]
      omega
    have hlow : isLowSurrogate c.toNat = false := by
      unfold isLowSurrogate
      simp only [Bool.and_eq_false_iff, decide_eq_false_iff_not]
      omega
    simp [scanString, value, hhigh, hlow, Char.ofNat_toNat]

theorem scanString_escaped (cs done rest : List Char) :
    scanString done (escaped cs ('\"' :: rest)) =
      .ok (String.ofList (done.reverse ++ cs), rest) := by
  induction cs generalizing done with
  | nil =>
    rw [List.append_nil]
    rfl
  | cons c cs ih =>
    rw [escaped_cons, scanString_escape, ih, List.reverse_cons, List.append_assoc]
    rfl

theorem readString_escaped (s : String) (rest : List Char) :
    readString (escaped s.toList ('\"' :: rest)) = .whole s rest := by
  rw [readString, scanString_escaped, List.reverse_nil, List.nil_append, String.ofList_toList]

end ModelSchema.Json
