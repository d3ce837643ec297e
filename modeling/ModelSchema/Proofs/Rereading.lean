import ModelSchema.Proofs.Numerals

namespace ModelSchema

namespace Binary64

variable {a a' b b' k k' n s s' u : Nat}

theorem units_pos : 0 < one :=
  Nat.two_pow_pos places

theorem limit_eq : limit = 2 ^ (971 + places + 53) := by
  rw [limit, Nat.pow_eq, Nat.add_right_comm]

theorem limit_pos : 0 < limit := by
  rw [limit_eq]
  exact Nat.two_pow_pos _

theorem one_mul_fineness : one * fineness = 10 ^ places :=
  (Nat.mul_pow 2 5 places).symm

theorem ofNat_mono (h : s ≤ s') : ofNat s ≤ ofNat s' :=
  round_mono Nat.one_pos (Nat.mul_le_mul_right one h)

theorem power_mono (h : k ≤ k') : power k ≤ power k' :=
  ofNat_mono (Nat.pow_le_pow_right (by decide) h)

theorem times_mono (ha : a ≤ a') (hb : b ≤ b') : times a b ≤ times a' b' :=
  round_mono units_pos (Nat.mul_le_mul ha hb)

theorem one_le_power (k : Nat) : one ≤ power k := by
  refine le_round Nat.one_pos (aligned_two_pow places) ?_
  rw [Nat.mul_one]
  exact Nat.le_mul_of_pos_left _ (Nat.pow_pos (by decide))

theorem power_pos (k : Nat) : 0 < power k :=
  Nat.lt_of_lt_of_le units_pos (one_le_power k)

theorem aligned_ofNat (s : Nat) : step (ofNat s) ∣ ofNat s :=
  aligned_round Nat.one_pos

theorem le_times_power (s k : Nat) : ofNat s ≤ times (ofNat s) (power k) :=
  le_round units_pos (aligned_ofNat s) (Nat.mul_le_mul_left _ (one_le_power k))

theorem dividedBy_power_le (hn : step n ∣ n) (k : Nat) : dividedBy n (power k) ≤ n :=
  round_le (power_pos k) hn (Nat.mul_le_mul_left n (one_le_power k))

theorem le_of_aligned (hu : step u ∣ u) (hlt : u < 2 ^ (k + 53)) : u ≤ (2 ^ 53 - 1) * 2 ^ k := by
  obtain hsmall | hlarge := Nat.lt_or_ge u (2 ^ (k + 52))
  · refine hsmall.le.trans ?_
    rw [Nat.add_comm, Nat.pow_add]
    exact Nat.mul_le_mul_right _ (by decide)
  · have hpos : u ≠ 0 := fun h0 => by
      rw [h0] at hlarge
      exact absurd hlarge (Nat.not_le.mpr (Nat.two_pow_pos _))
    have hlog : u.log2 = k + 52 := (Nat.log2_eq_iff hpos).mpr ⟨hlarge, hlt⟩
    have hstep : step u = 2 ^ k := by rw [step, hlog, Nat.add_sub_cancel, Nat.pow_eq]
    obtain ⟨m, hm⟩ := hu
    rw [hstep, Nat.mul_comm] at hm
    rw [hm, Nat.add_comm, Nat.pow_add] at hlt
    have hm' : m < 2 ^ 53 := Nat.lt_of_mul_lt_mul_right hlt
    rw [hm]
    exact Nat.mul_le_mul_right _ (by omega)

def greatest : Nat :=
  (2 ^ 53 - 1) * 2 ^ (971 + places)

theorem le_greatest (hu : Fits u) : u ≤ greatest :=
  le_of_aligned hu.aligned (limit_eq ▸ hu.small)

def greatestDigits : Nat :=
  17976931348623157

def greatestExponent : Nat :=
  292

theorem decimal_greatest : decimal greatest = ⟨greatestDigits, greatestExponent⟩ := by
  decide +kernel

theorem ofDecimal_greatest :
    ofDecimal (greatestDigits + 1) (greatestExponent + places) = greatest := by
  decide +kernel

theorem limit_le_ofDecimal : limit ≤ ofDecimal 1 (maxPower + 1 + places) := by
  decide +kernel

theorem times_power_lt_limit :
    times (ofNat (10 ^ (moreDigits + 1))) (power (greatestExponent - 1)) < limit := by
  decide +kernel

end Binary64

namespace Numeral

open Binary64

variable {n s u : Nat}

theorem lowered_le (hn : step n ∣ n) (last blocks : Nat) : lowered last blocks n ≤ n := by
  induction blocks generalizing n with
  | zero => exact dividedBy_power_le hn last
  | succ blocks ih =>
    rw [lowered]
    split
    · exact Nat.zero_le _
    · exact (ih (aligned_round (power_pos _))).trans (dividedBy_power_le hn _)

theorem aligned_lowered (n last blocks : Nat) :
    step (lowered last blocks n) ∣ lowered last blocks n := by
  induction blocks generalizing n with
  | zero => exact aligned_round (power_pos last)
  | succ blocks ih =>
    rw [lowered]
    split
    · exact Nat.dvd_zero _
    · exact ih _

theorem fits_scaled {e : Int} (h : scaled s e < limit) : Fits (scaled s e) := by
  refine ⟨?_, h⟩
  cases e with
  | negSucc e => exact aligned_lowered _ _ _
  | ofNat e =>
    revert h
    rw [scaled]
    split
    · exact fun _ => aligned_round units_pos
    · split
      · exact fun _ => Nat.dvd_zero _
      · exact fun h => absurd h (Nat.lt_irrefl _)

theorem scaled_zero (e : Nat) : scaled 0 (.ofNat e) = 0 := by
  rw [scaled]
  split
  · have hzero : ofNat 0 = 0 := Nat.le_zero.mp (round_le Nat.one_pos (Nat.dvd_zero _) (by simp))
    rw [hzero]
    exact Nat.le_zero.mp (round_le units_pos (Nat.dvd_zero _) (by simp))
  · exact if_pos rfl

theorem scaled_negSucc_lt (hs : s ≤ 10 ^ (moreDigits + 1)) (e : Nat) :
    scaled s (.negSucc e) < limit := by
  refine Nat.lt_of_le_of_lt ?_ times_power_lt_limit
  exact (lowered_le (aligned_ofNat s) _ _).trans ((ofNat_mono hs).trans (le_times_power _ _))

theorem times_power_lt : ∀ k < 17,
    times (ofNat (greatestDigits / 10 ^ k)) (power (greatestExponent + k)) < limit := by
  decide +kernel

theorem le_maxPower {e : Nat} (hpos : 0 < s) (hsmall : ofDecimal s (e + places) < limit) :
    e ≤ maxPower := by
  by_contra hlarge
  have hmono : ofDecimal 1 (maxPower + 1 + places) ≤ ofDecimal s (e + places) :=
    ofDecimal_mono (Nat.mul_le_mul hpos (Nat.pow_le_pow_right (by decide) (by omega)))
  exact absurd (limit_le_ofDecimal.trans hmono) (Nat.not_le.mpr hsmall)

theorem mul_pow_le_greatestDigits
    (hlt : ofDecimal s (greatestExponent + k + places) < greatest) :
    s * 10 ^ k ≤ greatestDigits := by
  rw [← ofDecimal_greatest] at hlt
  have hpower := lt_of_ofDecimal_lt hlt
  have hsplit : s * 10 ^ (greatestExponent + k + places) =
      s * 10 ^ k * 10 ^ (greatestExponent + places) := by
    rw [Nat.mul_assoc, ← Nat.pow_add]
    congr 2
    omega
  rw [hsplit] at hpower
  generalize 10 ^ (greatestExponent + places) = scale at hpower
  exact Nat.le_of_lt_succ (Nat.lt_of_mul_lt_mul_right hpower)

theorem scaled_ofNat_lt {e : Nat} (hu : Fits u) (hs : s ≤ 10 ^ (moreDigits + 1))
    (hnearest : ofDecimal s (e + places) = u)
    (hgreatest : u = greatest → s = greatestDigits ∧ e = greatestExponent) :
    scaled s (.ofNat e) < limit := by
  obtain rfl | hpos := Nat.eq_zero_or_pos s
  · rw [scaled_zero]
    exact limit_pos
  · have he : e ≤ maxPower := le_maxPower hpos (hnearest.trans_lt hu.small)
    rw [scaled, if_pos he]
    obtain hsmall | hlarge := Nat.lt_or_ge e greatestExponent
    · refine Nat.lt_of_le_of_lt ?_ times_power_lt_limit
      exact times_mono (ofNat_mono hs) (power_mono (Nat.le_sub_one_of_lt hsmall))
    · obtain ⟨k, rfl⟩ := Nat.exists_eq_add_of_le hlarge
      have hdigits : s * 10 ^ k ≤ greatestDigits := by
        obtain hlt | heq := Nat.lt_or_eq_of_le (le_greatest hu)
        · exact mul_pow_le_greatestDigits (hnearest.trans_lt hlt)
        · obtain ⟨rfl, he'⟩ := hgreatest heq
          obtain rfl : k = 0 := by omega
          rw [Nat.pow_zero, Nat.mul_one]
      have hk : k < 17 := by
        rw [maxPower, greatestExponent] at he
        omega
      have hle : s ≤ greatestDigits / 10 ^ k :=
        (Nat.le_div_iff_mul_le (Nat.pow_pos (by decide))).mpr hdigits
      exact Nat.lt_of_le_of_lt (times_mono (ofNat_mono hle) (Nat.le_refl _)) (times_power_lt k hk)

end Numeral

namespace Binary64

/-- What is written of a number is never out of range. -/
theorem units_numeral_lt (x : Binary64) : x.numeral.units < limit := by
  have hdenotes := decimal_denotes x.fits.aligned
  obtain ⟨k, hparts, hsmall, hk⟩ := (Decimal.partsOf_numeral hdenotes).parts
  have hgreatest : x.units = greatest → decimal x.units = ⟨greatestDigits, greatestExponent⟩ := by
    intro h
    rw [h, decimal_greatest]
  unfold Numeral.units numeral
  rw [hparts]
  generalize decimal x.units = d at hdenotes hgreatest hsmall hk ⊢
  show Numeral.scaled (d.digits * 10 ^ k) (d.exponent - k) < limit
  cases he : d.exponent - k with
  | negSucc e => exact Numeral.scaled_negSucc_lt hsmall e
  | ofNat e =>
    have hk0 : k = 0 := hk.resolve_right (by rw [he]; exact Int.not_lt.mpr (Int.natCast_nonneg e))
    have hdigits : d.digits * 10 ^ k = d.digits := by rw [hk0, Nat.pow_zero, Nat.mul_one]
    have hexponent : d.exponent = e := by
      rw [hk0] at he
      simpa using he
    have hplace : (d.exponent + places).toNat = e + places := by omega
    rw [hdigits] at hsmall ⊢
    refine Numeral.scaled_ofNat_lt x.fits hsmall (hplace ▸ hdenotes.nearest) fun h => ?_
    have hd := hgreatest h
    rw [hd] at hexponent ⊢
    exact ⟨rfl, (Int.ofNat.inj hexponent).symm⟩

def reread (x : Binary64) : Binary64 :=
  ⟨x.negative, x.numeral.units, Numeral.fits_scaled x.units_numeral_lt⟩

/-- The digits of the text count for an exact number, and so does its power of ten. -/
def Plain (x : Binary64) : Prop :=
  x.numeral.parts.1 ≤ 2 ^ 53 ∧ -22 ≤ x.numeral.parts.2 ∧ x.numeral.parts.2 ≤ 22

instance (x : Binary64) : Decidable x.Plain :=
  inferInstanceAs (Decidable (_ ∧ _))

theorem aligned_mul_two_pow (h : s ≤ 2 ^ 53) (k : Nat) : step (s * 2 ^ k) ∣ s * 2 ^ k := by
  obtain hlt | rfl := Nat.lt_or_eq_of_le h
  · obtain rfl | hpos := Nat.eq_zero_or_pos s
    · rw [Nat.zero_mul]
      exact Nat.dvd_zero _
    · refine Nat.dvd_trans (Nat.pow_dvd_pow 2 ?_) (Nat.dvd_mul_left (2 ^ k) s)
      have hlog : (s * 2 ^ k).log2 < 53 + k := by
        refine (Nat.log2_lt (Nat.ne_of_gt (Nat.mul_pos hpos (Nat.two_pow_pos k)))).mpr ?_
        rw [Nat.pow_add]
        exact Nat.mul_lt_mul_of_pos_right hlt (Nat.two_pow_pos k)
      omega
  · rw [← Nat.pow_add]
    exact aligned_two_pow _

theorem ofNat_mul_two_pow (h : s ≤ 2 ^ 53) (k : Nat) : ofNat (s * 2 ^ k) = s * 2 ^ k * one := by
  have haligned := aligned_mul_two_pow h (k + places)
  rw [Nat.pow_add, ← Nat.mul_assoc] at haligned
  have hself := round_mul_self Nat.one_pos haligned
  rwa [Nat.mul_one] at hself

theorem ofNat_exact (h : s ≤ 2 ^ 53) : ofNat s = s * one := by
  simpa using ofNat_mul_two_pow h 0

theorem le_places : 22 ≤ places := by
  rw [places]
  decide

theorem power_exact (h : k ≤ 22) : power k = 10 ^ k * one := by
  have hfive : 5 ^ k ≤ 2 ^ 53 := (Nat.pow_le_pow_right (by decide) h).trans (by decide)
  have hten : 10 ^ k = 5 ^ k * 2 ^ k := Nat.mul_pow 5 2 k
  rw [power, Nat.pow_eq, hten]
  exact ofNat_mul_two_pow hfive k

theorem scaled_exact {c j : Nat} {e : Int} (hs : s ≤ 2 ^ 53) (hlow : -22 ≤ e) (hhigh : e ≤ 22)
    (h : s * 10 ^ (e + places).toNat = c * 10 ^ j) : Numeral.scaled s e = ofDecimal c j := by
  cases e with
  | ofNat k =>
    have hk : k ≤ 22 := Int.ofNat_le.mp hhigh
    have hplace : (Int.ofNat k + places).toNat = k + places := rfl
    rw [hplace, Nat.pow_add, ← one_mul_fineness] at h
    rw [Numeral.scaled, if_pos (by rw [maxPower]; omega), times, ofNat_exact hs, power_exact hk,
      ofDecimal]
    refine round_congr units_pos fineness_pos ?_
    rw [Nat.pow_eq, ← h]
    ring
  | negSucc k =>
    have hk : k + 1 ≤ 22 := by omega
    have hdiv : k / maxPower = 0 := Nat.div_eq_of_lt (by rw [maxPower]; omega)
    have hmod : k % maxPower = k := Nat.mod_eq_of_lt (by rw [maxPower]; omega)
    have hplaces := le_places
    have hplace : places = (Int.negSucc k + places).toNat + (k + 1) := by omega
    have hpower : s * (one * fineness) = c * 10 ^ j * 10 ^ (k + 1) := by
      rw [one_mul_fineness, ← h, Nat.mul_assoc, ← Nat.pow_add, ← hplace]
    rw [Numeral.scaled, hdiv, hmod, Numeral.lowered, dividedBy, ofNat_exact hs, power_exact hk,
      ofDecimal]
    refine round_congr (Nat.mul_pos (Nat.pow_pos (by decide)) units_pos) fineness_pos ?_
    calc s * one * one * fineness = s * (one * fineness) * one := by ring
      _ = c * 10 ^ j * (10 ^ (k + 1) * one) := by rw [hpower]; ring

/-- Most numbers that are written by hand are kept. -/
theorem reread_of_plain {x : Binary64} (h : x.Plain) : x.reread = x := by
  have hdenotes := decimal_denotes x.fits.aligned
  obtain ⟨hs, hlow, hhigh⟩ := h
  obtain ⟨k, hparts, -, -⟩ := (Decimal.partsOf_numeral hdenotes).parts
  have hunits : x.numeral.units = x.units := by
    unfold numeral at hs hlow hhigh ⊢
    unfold Numeral.units
    rw [hparts] at hs hlow hhigh ⊢
    generalize decimal x.units = d at hdenotes hs hlow hhigh ⊢
    rw [← hdenotes.nearest]
    refine scaled_exact hs hlow hhigh ?_
    have hplace : (d.exponent + places).toNat = k + (d.exponent - k + places).toNat := by
      have hplaces := le_places
      dsimp only at hlow
      omega
    rw [hplace, Nat.pow_add, Nat.mul_assoc]
  obtain ⟨negative, units, fits⟩ := x
  unfold reread
  congr 1

end Binary64

end ModelSchema
