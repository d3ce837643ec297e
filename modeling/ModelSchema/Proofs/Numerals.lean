import ModelSchema.Proofs.Shortest

namespace ModelSchema

namespace Numeral

structure WellFormed (n : Numeral) : Prop where
  whole : Leading n.whole
  fraction : ∀ c ∈ n.fraction, c.isDigit
  exponent : ∀ e ∈ n.exponent, e.digits ≠ [] ∧ ∀ c ∈ e.digits, c.isDigit

end Numeral

namespace Decimal

open Binary64 (moreDigits)

theorem exponent_value (e : Int) :
    Exponent.value ⟨e < 0, Nat.toDigits 10 e.natAbs⟩ = e := by
  unfold Exponent.value
  rw [natOfDigits_toDigits]
  split
  · rename_i h
    have := of_decide_eq_true h
    omega
  · rename_i h
    have := mt decide_eq_true h
    omega

variable {d : Decimal} {u : Nat}

theorem exponent_of_toDigits_zero (h : d.Denotes u) (hds : Nat.toDigits 10 d.digits = ['0']) :
    d.exponent = 0 := by
  have hvalue := natOfDigits_toDigits d.digits
  rw [hds] at hvalue
  exact (h.lowest.resolve_left fun hne => hne (by rw [← hvalue]; rfl)).2

/-- The parts are those of the decimal, but for zeros behind the digits. These take the exponent
below zero. -/
structure PartsOf (n : Numeral) (d : Decimal) : Prop where
  wellFormed : n.WellFormed
  not_nat : n.nat? = none
  parts : ∃ k : Nat, n.parts = (d.digits * 10 ^ k, d.exponent - k) ∧
    d.digits * 10 ^ k ≤ 10 ^ (moreDigits + 1) ∧ (k = 0 ∨ d.exponent - k < 0)

theorem partsOf {n : Numeral} (hn : n.WellFormed) (hnat : n.fraction ≠ [] ∨ n.exponent ≠ none)
    (k : Nat) (hdigits : natOfDigits (n.whole ++ n.fraction) = d.digits * 10 ^ k)
    (hexponent : (n.exponent.map Exponent.value).getD 0 - n.fraction.length = d.exponent - k)
    (hsmall : d.digits * 10 ^ k ≤ 10 ^ (moreDigits + 1)) (hk : k = 0 ∨ d.exponent - k < 0) :
    PartsOf n d where
  wellFormed := hn
  not_nat := if_neg fun h => hnat.elim (· h.1) (· h.2.1)
  parts := by
    have hfits : natOfDigits (n.whole ++ n.fraction) < UInt64.size :=
      Nat.lt_of_le_of_lt (hdigits ▸ hsmall) (by decide)
    refine ⟨k, ?_, hsmall, hk⟩
    rw [Numeral.parts_eq hfits, hdigits, hexponent]

section Forms

variable {ds : List Char} (h : d.Denotes u) (hds : ds = Nat.toDigits 10 d.digits)
include h hds

theorem partsOf_padded (hexponent : 0 ≤ d.exponent) (hpoint : d.exponent + ds.length ≤ maxPoint) :
    PartsOf ⟨ds ++ List.replicate d.exponent.toNat '0', ['0'], none⟩ d := by
  have hlead : Leading ds := hds ▸ toDigits_leading d.digits
  have hzero : ds = ['0'] → d.exponent.toNat = 0 := fun h0 => by
    rw [exponent_of_toDigits_zero h (hds ▸ h0)]
    rfl
  have hdigits : natOfDigits (ds ++ List.replicate d.exponent.toNat '0' ++ ['0']) =
      d.digits * 10 ^ (d.exponent.toNat + 1) := by
    rw [List.append_assoc, ← List.replicate_succ', natOfDigits_zeros, hds, natOfDigits_toDigits]
  have hsmall : d.digits * 10 ^ (d.exponent.toNat + 1) ≤ 10 ^ (moreDigits + 1) := by
    have hlt := lt_pow_length_toDigits d.digits
    rw [← hds] at hlt
    refine (Nat.mul_le_mul_right _ hlt.le).trans ?_
    rw [← Nat.pow_add]
    refine Nat.pow_le_pow_right (by decide) ?_
    rw [maxPoint] at hpoint
    rw [moreDigits]
    omega
  have hwell : Numeral.WellFormed ⟨ds ++ List.replicate d.exponent.toNat '0', ['0'], none⟩ :=
    ⟨hlead.append_zeros hzero, by simp, by simp⟩
  refine partsOf hwell (Or.inl (List.cons_ne_nil _ _)) _ hdigits ?_ hsmall (Or.inr ?_)
  · show (0 : Int) - 1 = _
    omega
  · omega

theorem partsOf_split (hne : ds ≠ ['0']) {point : Nat} (hpos : 0 < point)
    (hshort : point < ds.length) (hpoint : point = d.exponent + ds.length) :
    PartsOf ⟨ds.take point, ds.drop point, none⟩ d := by
  have hlead : Leading ds := hds ▸ toDigits_leading d.digits
  have hwell : Numeral.WellFormed ⟨ds.take point, ds.drop point, none⟩ :=
    ⟨hlead.take hne hpos, fun c hc => hlead.digits c (List.mem_of_mem_drop hc), by simp⟩
  have hfraction : ds.drop point ≠ [] := by
    rw [Ne, List.drop_eq_nil_iff]
    omega
  refine partsOf hwell (Or.inl hfraction) 0 ?_ ?_ (by simpa using h.short) (Or.inl rfl)
  · rw [List.take_append_drop, hds, natOfDigits_toDigits, Nat.pow_zero, Nat.mul_one]
  · show (0 : Int) - (ds.drop point).length = _
    rw [List.length_drop]
    omega

theorem partsOf_shifted {zeros : Nat} (hpoint : -zeros = d.exponent + ds.length) :
    PartsOf ⟨['0'], List.replicate zeros '0' ++ ds, none⟩ d := by
  have hlead : Leading ds := hds ▸ toDigits_leading d.digits
  have hwell : Numeral.WellFormed ⟨['0'], List.replicate zeros '0' ++ ds, none⟩ :=
    ⟨⟨by simp, Or.inl rfl⟩,
      fun c hc => (List.mem_append.mp hc).elim isDigit_of_mem_zeros (hlead.digits c), by simp⟩
  have hfraction : List.replicate zeros '0' ++ ds ≠ [] := by
    rw [hds]
    exact List.append_ne_nil_of_right_ne_nil _ Nat.toDigits_ne_nil
  refine partsOf hwell (Or.inl hfraction) 0 ?_ ?_ (by simpa using h.short) (Or.inl rfl)
  · rw [Nat.pow_zero, Nat.mul_one, hds]
    exact (natOfDigits_zeros_append (zeros + 1) _).trans (natOfDigits_toDigits _)
  · show (0 : Int) - (List.replicate zeros '0' ++ ds).length = _
    rw [List.length_append, List.length_replicate]
    omega

theorem partsOf_scientific (hne : ds ≠ ['0']) :
    PartsOf ⟨ds.take 1, ds.drop 1, some ⟨d.exponent + ds.length - 1 < 0,
      Nat.toDigits 10 (d.exponent + ds.length - 1).natAbs⟩⟩ d := by
  have hlead : Leading ds := hds ▸ toDigits_leading d.digits
  have hlength : 0 < ds.length := hds ▸ Nat.length_toDigits_pos
  refine partsOf ⟨hlead.take hne Nat.one_pos,
    fun c hc => hlead.digits c (List.mem_of_mem_drop hc), ?_⟩ (Or.inr (Option.some_ne_none _)) 0
    ?_ ?_ (by simpa using h.short) (Or.inl rfl)
  · rintro _ ⟨⟩
    exact ⟨Nat.toDigits_ne_nil, fun c hc => isDigit_of_mem_decimal hc⟩
  · rw [List.take_append_drop, hds, natOfDigits_toDigits, Nat.pow_zero, Nat.mul_one]
  · show Exponent.value _ - (ds.drop 1).length = _
    rw [exponent_value, List.length_drop]
    omega

end Forms

theorem partsOf_numeral (h : d.Denotes u) : PartsOf d.numeral d := by
  have hzero := exponent_of_toDigits_zero h
  unfold numeral
  generalize hds : Nat.toDigits 10 d.digits = ds at hzero
  dsimp only
  split
  · rename_i hwhole
    exact partsOf_padded h hds.symm hwhole.1 hwhole.2
  · rename_i hwhole
    -- Zero itself is written with its point behind it.
    have hne : ds ≠ ['0'] := fun h0 => hwhole (by rw [hzero h0, h0]; decide)
    split
    · exact partsOf_split h hds.symm hne (by omega) (by omega) (by omega)
    · split
      · exact partsOf_shifted h hds.symm (by omega)
      · exact partsOf_scientific h hds.symm hne

end Decimal

end ModelSchema
