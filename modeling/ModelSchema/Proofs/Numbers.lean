import ModelSchema.Json.Compact
import ModelSchema.Proofs.Rereading
import ModelSchema.Proofs.Strings

namespace ModelSchema

namespace Json

def IsNumeric (c : Char) : Prop :=
  c.isDigit ∨ c = '-' ∨ c = '.' ∨ c = 'e'

instance (c : Char) : Decidable (IsNumeric c) :=
  inferInstanceAs (Decidable (_ ∨ _))

/-- What may stand behind a value: nothing, a blank, a comma or a closing bracket. -/
def Delimited (rest : List Char) : Prop :=
  ∀ c ∈ rest.head?, isBlank c ∨ c = ',' ∨ c = ']' ∨ c = '\x7d'

variable {rest : List Char}

theorem delimited_nil : Delimited [] := by
  rintro c ⟨⟩

theorem delimited_cons {c : Char} (h : isBlank c ∨ c = ',' ∨ c = ']' ∨ c = '\x7d')
    (rest : List Char) : Delimited (c :: rest) := by
  rintro c ⟨⟩
  exact h

theorem Delimited.ends (h : Delimited rest) :
    ∀ c ∈ rest.head?, c.isDigit = false ∧ c ≠ '.' ∧ ¬(c = 'e' ∨ c = 'E') := by
  intro c hc
  have hdelimited := h c hc
  simp only [isBlank, Bool.or_eq_true, decide_eq_true_eq] at hdelimited
  obtain (((rfl | rfl) | rfl) | rfl) | rfl | rfl | rfl := hdelimited <;> decide

theorem takeWhile_digits {ds : List Char} (hd : ∀ c ∈ ds, c.isDigit)
    (hr : ∀ c ∈ rest.head?, c.isDigit = false) :
    (ds ++ rest).takeWhile Char.isDigit = ds ∧ (ds ++ rest).dropWhile Char.isDigit = rest := by
  rw [List.takeWhile_append_of_pos hd, List.dropWhile_append_of_pos hd]
  cases rest with
  | nil => simp
  | cons c rest =>
    have hc : c.isDigit = false := hr c rfl
    simp [hc]

section Scanning

variable {ds : List Char}

theorem scanWhole_leading (h : Leading ds) (hr : ∀ c ∈ rest.head?, c.isDigit = false) :
    scanWhole (ds ++ rest) = .ok (ds, rest) := by
  obtain rfl | ⟨c, cs, rfl, hc⟩ := h.first
  · have hhead : (rest.head?.map Char.isDigit).getD false = false := by
      cases rest with
      | nil => rfl
      | cons c rest => exact hr c rfl
    unfold scanWhole
    simp only [List.cons_append, List.nil_append, hhead, Bool.false_eq_true, if_false]
  · have hdigit : c.isDigit := h.digits c List.mem_cons_self
    obtain ⟨htake, hdrop⟩ := takeWhile_digits h.digits hr
    rw [List.cons_append] at htake hdrop ⊢
    unfold scanWhole
    split
    · contradiction
    · rename_i heq
      exact absurd (List.cons.inj heq).1 hc
    · rename_i heq
      cases heq
      rw [if_pos hdigit, htake, hdrop]

theorem scanDigits_append (hne : ds ≠ []) (hd : ∀ c ∈ ds, c.isDigit)
    (hr : ∀ c ∈ rest.head?, c.isDigit = false) : scanDigits (ds ++ rest) = .ok (ds, rest) := by
  obtain ⟨htake, hdrop⟩ := takeWhile_digits hd hr
  unfold scanDigits
  rw [htake, hdrop]
  split <;> first | contradiction | rfl

theorem scanFraction_append (hd : ∀ c ∈ ds, c.isDigit)
    (hr : ∀ c ∈ rest.head?, c.isDigit = false ∧ c ≠ '.') :
    scanFraction ((if ds = [] then [] else '.' :: ds) ++ rest) = .ok (ds, rest) := by
  split
  · rename_i hnil
    rw [hnil, List.nil_append]
    unfold scanFraction
    split
    · exact absurd rfl (hr _ rfl).2
    · rfl
  · rename_i hne
    exact scanDigits_append hne hd fun c hc => (hr c hc).1

theorem scanSign_digits (negative : Bool) {c : Char} (hc : c.isDigit) (cs : List Char) :
    scanSign ((if negative then ['-'] else []) ++ c :: cs) = (negative, c :: cs) := by
  cases negative with
  | true => rfl
  | false =>
    show scanSign (c :: cs) = _
    unfold scanSign
    split
    · rename_i heq
      cases heq
      cases hc
    · rename_i heq
      cases heq
      cases hc
    · rfl

theorem scanExponent_none (h : Delimited rest) : scanExponent rest = .ok (none, rest) := by
  unfold scanExponent
  split
  · rename_i e rest
    exact if_neg (h.ends e rfl).2.2
  · rfl

theorem scanExponent_some {e : Exponent} (hne : e.digits ≠ []) (hd : ∀ c ∈ e.digits, c.isDigit)
    (h : Delimited rest) :
    scanExponent ('e' :: ((if e.negative then ['-'] else []) ++ e.digits) ++ rest) =
      .ok (some e, rest) := by
  obtain ⟨negative, digits⟩ := e
  obtain ⟨c, cs, rfl⟩ := List.exists_cons_of_ne_nil hne
  have hsign := scanSign_digits negative (hd c List.mem_cons_self) (cs ++ rest)
  have hdigits := scanDigits_append hne hd fun c hc => (h.ends c hc).1
  rw [List.cons_append] at hdigits
  rw [List.cons_append, List.append_assoc, List.cons_append]
  unfold scanExponent
  simp only [true_or, if_true, hsign, hdigits]
  rfl

theorem scanNumeral_text {n : Numeral} (hn : n.WellFormed) (h : Delimited rest) :
    scanNumeral (n.text ++ rest) = .ok (n, rest) := by
  obtain ⟨whole, fraction, exponent⟩ := n
  have hfraction : ∀ {text : List Char}, (∀ c ∈ text.head?, c.isDigit = false ∧ c ≠ '.') →
      scanWhole (whole ++ ((if fraction = [] then [] else '.' :: fraction) ++ text)) =
        .ok (whole, (if fraction = [] then [] else '.' :: fraction) ++ text) := by
    intro text htext
    refine scanWhole_leading hn.whole ?_
    split
    · exact fun c hc => (htext c hc).1
    · rintro c ⟨⟩
      rfl
  unfold Numeral.text scanNumeral
  rw [List.append_assoc, List.append_assoc]
  cases exponent with
  | none =>
    have hends : ∀ c ∈ rest.head?, c.isDigit = false ∧ c ≠ '.' :=
      fun c hc => ⟨(h.ends c hc).1, (h.ends c hc).2.1⟩
    simp only [List.nil_append, hfraction hends, scanFraction_append hn.fraction hends,
      scanExponent_none h, bind, Except.bind, pure, Except.pure]
  | some e =>
    obtain ⟨hne, hd⟩ := hn.exponent e rfl
    have hends : ∀ c ∈ ('e' :: ((if e.negative then ['-'] else []) ++ e.digits) ++ rest).head?,
        c.isDigit = false ∧ c ≠ '.' := by
      rintro c ⟨⟩
      decide
    simp only [hfraction hends, scanFraction_append hn.fraction hends,
      scanExponent_some hne hd h, bind, Except.bind, pure, Except.pure]

end Scanning

def numeralOfNat (n : Nat) : Numeral :=
  ⟨Nat.toDigits 10 n, [], none⟩

theorem numeralOfNat_wellFormed (n : Nat) : (numeralOfNat n).WellFormed :=
  ⟨toDigits_leading n, by simp [numeralOfNat], by simp [numeralOfNat]⟩

theorem numeralOfNat_text (n : Nat) : (numeralOfNat n).text = Nat.toDigits 10 n := by
  simp [numeralOfNat, Numeral.text]

theorem scalarOfNumeral?_nat (negative : Bool) {n : Nat} (h : n < UInt64.size) :
    scalarOfNumeral? negative (numeralOfNat n) = scalarOfNat? negative n := by
  have hvalue : natOfDigits (numeralOfNat n).whole = n := natOfDigits_toDigits n
  have hnat : (numeralOfNat n).nat? = some n := by
    unfold Numeral.nat?
    rw [hvalue]
    exact if_pos ⟨rfl, rfl, h⟩
  rw [scalarOfNumeral?, hnat]

theorem scalarOfNumeral?_float (x : Binary64) :
    scalarOfNumeral? x.negative x.numeral = some (.float x.reread) := by
  have hparts := Decimal.partsOf_numeral (Binary64.decimal_denotes x.fits.aligned)
  have hfits : Binary64.ofUnits? x.negative x.numeral.units = some x.reread :=
    dif_pos (Numeral.fits_scaled x.units_numeral_lt)
  have hnat : x.numeral.nat? = none := hparts.not_nat
  rw [scalarOfNumeral?, hnat]
  exact congrArg (Option.map Scalar.float) hfits

theorem isNumeric_of_mem_intText {n : Int} {c : Char} (h : c ∈ intText n) : IsNumeric c := by
  cases n with
  | ofNat k => exact Or.inl (isDigit_of_mem_decimal h)
  | negSucc k =>
    obtain rfl | h := List.mem_cons.mp h
    · decide
    · exact Or.inl (isDigit_of_mem_decimal h)

theorem isNumeric_of_mem_numeral {n : Numeral} (h : n.WellFormed) : ∀ c ∈ n.text, IsNumeric c := by
  refine List.forall_mem_append.mpr ⟨List.forall_mem_append.mpr ⟨?_, ?_⟩, ?_⟩
  · exact fun c hc => Or.inl (h.whole.digits c hc)
  · split
    · simp
    · exact List.forall_mem_cons.mpr ⟨by decide, fun c hc => Or.inl (h.fraction c hc)⟩
  · split
    · simp
    · rename_i e he
      refine List.forall_mem_cons.mpr ⟨by decide, List.forall_mem_append.mpr ⟨?_, ?_⟩⟩
      · split <;> exact forall_mem_of_all (by decide)
      · exact fun c hc => Or.inl ((h.exponent e he).2 c hc)

theorem numeral_wellFormed (x : Binary64) : x.numeral.WellFormed :=
  (Decimal.partsOf_numeral (Binary64.decimal_denotes x.fits.aligned)).wellFormed

theorem isNumeric_of_mem_text {x : Binary64} : ∀ c ∈ x.text, IsNumeric c := by
  refine List.forall_mem_append.mpr ⟨?_, isNumeric_of_mem_numeral (numeral_wellFormed x)⟩
  split <;> exact forall_mem_of_all (by decide)

theorem intText_ne_nil (n : Int) : intText n ≠ [] := by
  cases n with
  | ofNat k => exact Nat.toDigits_ne_nil
  | negSucc k => exact List.cons_ne_nil _ _

theorem first_of_wellFormed {n : Numeral} (h : n.WellFormed) :
    ∃ c cs, n.text = c :: cs ∧ c.isDigit := by
  obtain ⟨c, cs, hwhole⟩ : ∃ c cs, n.whole = c :: cs := by
    obtain h | ⟨c, cs, h, -⟩ := h.whole.first
    · exact ⟨_, _, h⟩
    · exact ⟨c, cs, h⟩
  have hdigit : c.isDigit := h.whole.digits c (by simp [hwhole])
  rw [Numeral.text, hwhole, List.cons_append, List.cons_append]
  exact ⟨c, _, rfl, hdigit⟩

theorem text_ne_nil (x : Binary64) : x.text ≠ [] := by
  obtain ⟨c, cs, htext, -⟩ := first_of_wellFormed (numeral_wellFormed x)
  exact List.append_ne_nil_of_right_ne_nil _ (by rw [htext]; exact List.cons_ne_nil c cs)

theorem readScalar_numeral (negative : Bool) {n : Numeral} (hn : n.WellFormed) {s : Scalar}
    (hs : scalarOfNumeral? negative n = some s) (h : Delimited rest) {c : Char} {cs : List Char}
    (htext : (if negative then ['-'] else []) ++ (n.text ++ rest) = c :: cs) :
    readScalar c cs = .whole s rest := by
  have hread : readNumber negative (n.text ++ rest) = .whole s rest := by
    rw [readNumber, scanNumeral_text hn h]
    simp only [hs]
  obtain ⟨digit, digits, hfirst, hdigit⟩ := first_of_wellFormed hn
  rw [hfirst, List.cons_append] at htext hread
  cases negative with
  | true =>
    cases htext
    exact hread
  | false =>
    cases htext
    unfold readScalar
    split <;> first | cases hdigit | rwa [if_pos hdigit]

theorem readScalar_intText {n : Int} (low : -2 ^ 63 ≤ n) (high : n < 2 ^ 64)
    (h : Delimited rest) {c : Char} {cs : List Char} (htext : intText n ++ rest = c :: cs) :
    readScalar c cs = .whole (.int n) rest := by
  cases n with
  | ofNat k =>
    have hk : k < UInt64.size := Int.ofNat_lt.mp high
    refine readScalar_numeral false (numeralOfNat_wellFormed k)
      (scalarOfNumeral?_nat false hk) h ?_
    rw [numeralOfNat_text]
    exact htext
  | negSucc k =>
    have hk : k + 1 < UInt64.size := by
      rw [UInt64.size]
      omega
    have hscalar : scalarOfNat? true (k + 1) = some (.int (.negSucc k)) := by
      have hsize : ¬(k + 1 = 0 ∨ UInt64.size / 2 < k + 1) := by
        rw [UInt64.size]
        omega
      rw [scalarOfNat?, if_pos rfl, if_neg hsize]
      rfl
    refine readScalar_numeral true (numeralOfNat_wellFormed (k + 1))
      ((scalarOfNumeral?_nat true hk).trans hscalar) h ?_
    rw [numeralOfNat_text]
    exact htext

/-- A number that is no integer is read, but not always as itself. -/
theorem readScalar_text (x : Binary64) (h : Delimited rest) {c : Char} {cs : List Char}
    (htext : x.text ++ rest = c :: cs) : readScalar c cs = .whole (.float x.reread) rest := by
  rw [Binary64.text, List.append_assoc] at htext
  exact readScalar_numeral x.negative (numeral_wellFormed x) (scalarOfNumeral?_float x) h htext

end Json

end ModelSchema
