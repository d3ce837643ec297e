import ModelSchema.Json.Decimal
import ModelSchema.Proofs.Digits
import ModelSchema.Proofs.Rounding

namespace ModelSchema

namespace Binary64

variable {u c j : Nat}

theorem fineness_pos : 0 < fineness :=
  Nat.pow_pos (by decide)

theorem ofDecimal_mono {c' j' : Nat} (h : c * 10 ^ j ≤ c' * 10 ^ j') :
    ofDecimal c j ≤ ofDecimal c' j' :=
  round_mono fineness_pos h

theorem lt_of_ofDecimal_lt {c' j' : Nat} (h : ofDecimal c j < ofDecimal c' j') :
    c * 10 ^ j < c' * 10 ^ j' :=
  Nat.lt_of_not_le fun hle => Nat.not_lt.mpr (ofDecimal_mono hle) h

theorem lt_mul_step (n : Nat) : n < 2 ^ 53 * step n := by
  rw [step, Nat.pow_eq, ← Nat.pow_add]
  exact Nat.lt_of_lt_of_le Nat.lt_log2_self (Nat.pow_le_pow_right (by decide) (by omega))

theorem log2_of_lt_step {n : Nat} (hu : step u ∣ u) (hle : u ≤ n) (hlt : n < u + step u)
    (hpos : 0 < u) : n.log2 = u.log2 := by
  have hnext : u + step u ≤ 2 ^ (u.log2 + 1) := by
    obtain ⟨k, hk⟩ := hu
    obtain ⟨l, hl⟩ := step_dvd_two_pow (n := u) (Nat.le_succ u.log2)
    have hkl : k < l := by
      refine Nat.lt_of_mul_lt_mul_left (a := step u) ?_
      rw [← hk, ← hl]
      exact Nat.lt_log2_self
    rw [hl]
    calc u + step u = step u * (k + 1) := by rw [Nat.mul_succ, ← hk]
      _ ≤ step u * l := Nat.mul_le_mul_left _ hkl
  refine Nat.le_antisymm (Nat.le_of_lt_succ ?_) (log2_mono hle)
  exact (Nat.log2_lt (by omega)).mpr (Nat.lt_of_lt_of_le hlt hnext)

section Search

variable {p : Nat}

/-- A number with enough digits at a place is written closer than numbers of its size stand. -/
theorem pow_lt_of_near {n s : Nat} (hp : 2 ^ 53 < 10 ^ p) (h : 10 ^ p * 10 ^ j ≤ u * fineness)
    (hn : 2 * (u * fineness) ≤ 2 * n + 10 ^ j) (hs : n < 2 ^ 53 * (s * fineness)) :
    10 ^ j < s * fineness := by
  by_contra hle
  have h1 : 2 ^ 53 * (s * fineness) ≤ 2 ^ 53 * 10 ^ j :=
    Nat.mul_le_mul_left _ (Nat.not_lt.mp hle)
  have h2 : (2 ^ 53 + 1) * 10 ^ j ≤ 10 ^ p * 10 ^ j := Nat.mul_le_mul_right _ hp
  omega

theorem ofDecimal_nearest (hp : 2 ^ 53 < 10 ^ p) (hu : step u ∣ u)
    (h : 10 ^ p * 10 ^ j ≤ u * fineness) :
    ofDecimal (nearest (u * fineness) (10 ^ j)) j = u := by
  have hpower : 0 < 10 ^ j := Nat.pow_pos (by decide)
  have hpos : 0 < u := by
    refine Nat.pos_of_mul_pos_right (Nat.lt_of_lt_of_le (Nat.mul_pos ?_ hpower) h)
    exact Nat.pow_pos (by decide)
  obtain ⟨hlow, hhigh⟩ := nearest_error (n := u * fineness) hpower
  unfold ofDecimal
  generalize nearest (u * fineness) (10 ^ j) * 10 ^ j = n at hlow hhigh
  have hspaceu : 10 ^ j < step u * fineness := by
    refine pow_lt_of_near (n := u * fineness) hp h (by omega) ?_
    rw [← Nat.mul_assoc]
    exact Nat.mul_lt_mul_of_pos_right (lt_mul_step u) fineness_pos
  have hspacen : 10 ^ j < step (n / fineness) * fineness := by
    refine pow_lt_of_near hp h hlow ?_
    rw [← Nat.mul_assoc]
    exact (Nat.div_lt_iff_lt_mul fineness_pos).mp (lt_mul_step _)
  refine round_eq_of_error ?_ (by omega) (by omega)
  obtain hlt | hle := Nat.lt_or_ge u (n / fineness)
  · have hnext : n / fineness < u + step u := by
      rw [Nat.div_lt_iff_lt_mul fineness_pos, Nat.add_mul]
      omega
    rw [step, log2_of_lt_step hu hlt.le hnext hpos]
    exact hu
  · exact (step_dvd_step hle).trans hu

theorem ofDecimal_zero (hu : step u ∣ u) :
    ofDecimal (nearest (u * fineness) (10 ^ 0)) 0 = u := by
  have hself := nearest_mul_left Nat.one_pos (u * fineness)
  rw [Nat.mul_one] at hself
  rw [Nat.pow_zero, hself, ofDecimal, Nat.pow_eq, Nat.pow_zero, Nat.mul_one]
  exact round_mul_self fineness_pos hu

theorem ofDecimal_of_standIn? (h : standIn? u j = some c) : ofDecimal c j = u := by
  have hc := List.find?_some h
  exact of_decide_eq_true hc

theorem le_of_standIn? (h : standIn? u j = some c) : c ≤ u * fineness / 10 ^ j + 1 := by
  have hall : ∀ c ∈ candidates u j, c ≤ u * fineness / 10 ^ j + 1 := by
    simp only [candidates, List.forall_mem_cons]
    exact ⟨nearest_le_div_succ _ _, Nat.le_succ _, Nat.le_refl _, by simp⟩
  exact hall c (List.mem_of_find?_eq_some h)

theorem ofDecimal_digits (hp : 2 ^ 53 < 10 ^ p) (hu : step u ∣ u) {more : Nat}
    (h : j = 0 ∨ 10 ^ p * 10 ^ j ≤ u * fineness * 10 ^ more) :
    ofDecimal (digits u more j).1 (digits u more j).2 = u := by
  induction more generalizing j with
  | zero =>
    rw [Nat.pow_zero, Nat.mul_one] at h
    show ofDecimal (nearest (u * fineness) (10 ^ j)) j = u
    cases h with
    | inl h =>
      rw [h]
      exact ofDecimal_zero hu
    | inr h => exact ofDecimal_nearest hp hu h
  | succ more ih =>
    rw [digits]
    cases hfound : standIn? u j with
    | some c => exact ofDecimal_of_standIn? hfound
    | none =>
      cases j with
      | zero => exact ih (Or.inl rfl)
      | succ j =>
        have hstep := h.resolve_left (Nat.succ_ne_zero j)
        rw [Nat.pow_succ 10 j, Nat.pow_succ 10 more, ← Nat.mul_assoc, ← Nat.mul_assoc] at hstep
        exact ih (Or.inr (Nat.le_of_mul_le_mul_right hstep (by decide)))

theorem digits_le {more : Nat} (h : u * fineness * 10 ^ more < 10 ^ p * 10 ^ j) :
    (digits u more j).1 ≤ 10 ^ p := by
  have hbound : ∀ {more j}, u * fineness * 10 ^ more < 10 ^ p * 10 ^ j →
      u * fineness / 10 ^ j + 1 ≤ 10 ^ p := by
    intro more j h
    refine (Nat.div_lt_iff_lt_mul (Nat.pow_pos (by decide))).mpr (Nat.lt_of_le_of_lt ?_ h)
    exact Nat.le_mul_of_pos_right _ (Nat.pow_pos (by decide))
  induction more generalizing j with
  | zero => exact (nearest_le_div_succ _ _).trans (hbound h)
  | succ more ih =>
    rw [digits]
    cases hfound : standIn? u j with
    | some c => exact (le_of_standIn? hfound).trans (hbound h)
    | none =>
      refine ih ?_
      rw [Nat.pow_succ 10 more, ← Nat.mul_assoc] at h
      cases j with
      | zero =>
        refine Nat.lt_of_le_of_lt ?_ h
        exact Nat.le_mul_of_pos_right _ (by decide)
      | succ j =>
        rw [Nat.pow_succ 10 j, ← Nat.mul_assoc] at h
        exact Nat.lt_of_mul_lt_mul_right h

end Search

end Binary64

namespace Decimal

theorem strip_spec (fuel digits : Nat) (exponent : Int) (h : digits < 10 ^ fuel) :
    ∃ k : Nat, digits = (strip fuel digits exponent).1 * 10 ^ k ∧
      (strip fuel digits exponent).2 = exponent + k ∧
      (digits ≠ 0 → (strip fuel digits exponent).1 % 10 ≠ 0) := by
  induction fuel generalizing digits exponent with
  | zero =>
    refine ⟨0, ?_, ?_, fun hne => ?_⟩
    · rw [strip, Nat.pow_zero, Nat.mul_one]
    · rw [strip, Nat.cast_zero, Int.add_zero]
    · rw [Nat.pow_zero] at h
      omega
  | succ fuel ih =>
    unfold strip
    split
    · rename_i hzero
      obtain ⟨k, hdigits, hexponent, hlowest⟩ := ih (digits / 10) (exponent + 1) (by omega)
      refine ⟨k + 1, ?_, ?_, fun _ => hlowest (by omega)⟩
      · rw [Nat.pow_succ, ← Nat.mul_assoc, ← hdigits]
        omega
      · rw [hexponent, Nat.cast_succ]
        omega
    · rename_i hlast
      refine ⟨0, ?_, ?_, fun hne hmod => hlast ⟨hne, hmod⟩⟩
      · rw [Nat.pow_zero, Nat.mul_one]
      · rw [Nat.cast_zero, Int.add_zero]

/-- In lowest terms, with no more than seventeen digits, and what is nearest to it is the number
of so many units. -/
structure Denotes (d : Decimal) (u : Nat) : Prop where
  lowest : d.digits % 10 ≠ 0 ∨ d.digits = 0 ∧ d.exponent = 0
  short : d.digits ≤ 10 ^ (Binary64.moreDigits + 1)
  nearest : Binary64.ofDecimal d.digits (d.exponent + Binary64.places).toNat = u

theorem normal_denotes {c j u : Nat} (hc : c ≤ 10 ^ (Binary64.moreDigits + 1))
    (h : Binary64.ofDecimal c j = u) : (normal c (j - Binary64.places)).Denotes u := by
  obtain ⟨k, hdigits, hexponent, hlowest⟩ :=
    strip_spec (Nat.toDigits 10 c).length c (j - Binary64.places) (lt_pow_length_toDigits c)
  unfold normal
  generalize strip (Nat.toDigits 10 c).length c (j - Binary64.places) = r
    at hdigits hexponent hlowest
  obtain ⟨d, e⟩ := r
  dsimp only at hdigits hexponent hlowest ⊢
  obtain rfl | hne := Nat.eq_zero_or_pos c
  · obtain rfl : d = 0 := by
      obtain h0 | h0 := Nat.mul_eq_zero.mp hdigits.symm
      · exact h0
      · exact absurd h0 (Nat.ne_of_gt (Nat.pow_pos (by decide)))
    refine ⟨Or.inr ⟨rfl, rfl⟩, Nat.zero_le _, ?_⟩
    rw [← h, Binary64.ofDecimal, Binary64.ofDecimal, Nat.zero_mul, Nat.zero_mul]
  · have hd : d ≠ 0 := fun h0 => by
      rw [h0, Nat.zero_mul] at hdigits
      omega
    have hpower : 0 < 10 ^ k := Nat.pow_pos (by decide)
    have hvalue : d * 10 ^ (e + Binary64.places).toNat = c * 10 ^ j := by
      have he : (e + Binary64.places).toNat = k + j := by omega
      rw [he, Nat.pow_add, ← Nat.mul_assoc, ← hdigits]
    rw [if_neg hd]
    refine ⟨Or.inl (hlowest (by omega)), ?_, ?_⟩
    · exact (Nat.le_mul_of_pos_right d hpower).trans (hdigits ▸ hc)
    · show Binary64.ofDecimal d (e + Binary64.places).toNat = u
      rw [← h, Binary64.ofDecimal, Nat.pow_eq, hvalue, Binary64.ofDecimal, Nat.pow_eq]

end Decimal

namespace Binary64

/-- The digits that are written stand for the number. -/
theorem decimal_denotes {u : Nat} (hu : step u ∣ u) : (decimal u).Denotes u := by
  obtain ⟨n, hn⟩ : ∃ n, (Nat.toDigits 10 (u * fineness)).length = n + 1 :=
    Nat.exists_eq_add_one.mpr Nat.length_toDigits_pos
  have hupper := lt_pow_length_toDigits (u * fineness)
  have hlower := pow_le_of_length_toDigits (n := u * fineness) (k := n)
  rw [hn] at hupper hlower
  have hshort : (digits u moreDigits n).1 ≤ 10 ^ (moreDigits + 1) := by
    refine digits_le ?_
    calc u * fineness * 10 ^ moreDigits < 10 ^ (n + 1) * 10 ^ moreDigits :=
          Nat.mul_lt_mul_of_pos_right hupper (Nat.pow_pos (by decide))
      _ = 10 ^ (moreDigits + 1) * 10 ^ n := by rw [← Nat.pow_add, ← Nat.pow_add]; congr 1; omega
  have hnearest : ofDecimal (digits u moreDigits n).1 (digits u moreDigits n).2 = u := by
    refine ofDecimal_digits (p := moreDigits) (by decide) hu ?_
    obtain hzero | hpos := Nat.eq_zero_or_pos (u * fineness)
    · rw [hzero] at hn
      exact Or.inl (Nat.succ.inj hn).symm
    · rw [Nat.mul_comm]
      exact Or.inr (Nat.mul_le_mul_right _ (hlower hpos (Nat.lt_succ_self n)))
  have hdenotes := Decimal.normal_denotes hshort hnearest
  unfold decimal
  rw [hn, Nat.add_sub_cancel]
  exact hdenotes

end Binary64

end ModelSchema
