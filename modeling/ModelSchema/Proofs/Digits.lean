import Mathlib.Algebra.Ring.Nat
import ModelSchema.Json.Numeral

namespace ModelSchema

/-- Digits that can stand before a point: no zero leads any others. -/
structure Leading (ds : List Char) : Prop where
  digits : ∀ c ∈ ds, c.isDigit
  first : ds = ['0'] ∨ ∃ c cs, ds = c :: cs ∧ c ≠ '0'

theorem natOfDigits_append (ds es : List Char) :
    natOfDigits (ds ++ es) = Nat.ofDigitChars 10 es (natOfDigits ds) :=
  List.foldl_append

theorem natOfDigits_toDigits (n : Nat) : natOfDigits (Nat.toDigits 10 n) = n :=
  Nat.ofDigitChars_ten_toDigits

theorem natOfDigits_zeros (ds : List Char) (k : Nat) :
    natOfDigits (ds ++ List.replicate k '0') = natOfDigits ds * 10 ^ k := by
  rw [natOfDigits_append, Nat.ofDigitChars_replicate_zero, Nat.mul_comm]

theorem natOfDigits_zeros_append (k : Nat) (ds : List Char) :
    natOfDigits (List.replicate k '0' ++ ds) = natOfDigits ds := by
  induction k with
  | zero => rfl
  | succ k ih => exact ih

theorem isDigit_of_mem_decimal {n : Nat} {c : Char} (h : c ∈ Nat.toDigits 10 n) : c.isDigit :=
  Nat.isDigit_of_mem_toDigits (by decide) (by decide) h

theorem isDigit_of_mem_zeros {k : Nat} {c : Char} (h : c ∈ List.replicate k '0') : c.isDigit := by
  rw [List.eq_of_mem_replicate h]
  rfl

theorem toDigits_head_ne_zero {n : Nat} (h : 0 < n) :
    ∃ c cs, Nat.toDigits 10 n = c :: cs ∧ c ≠ '0' := by
  induction n using Nat.strongRecOn with
  | ind n ih =>
    rw [Nat.toDigits_eq_if (by decide)]
    split
    · rename_i hlt
      refine ⟨_, [], rfl, ?_⟩
      have hall : ∀ m < 10, 0 < m → m.digitChar ≠ '0' := by decide
      exact hall n hlt h
    · rename_i hge
      obtain ⟨c, cs, hcs, hc⟩ := ih (n / 10) (by omega) (by omega)
      exact ⟨c, cs ++ [(n % 10).digitChar], by rw [hcs, List.cons_append], hc⟩

theorem toDigits_leading (n : Nat) : Leading (Nat.toDigits 10 n) where
  digits _ h := isDigit_of_mem_decimal h
  first := by
    obtain rfl | h := Nat.eq_zero_or_pos n
    · exact Or.inl rfl
    · exact Or.inr (toDigits_head_ne_zero h)

theorem Leading.take {ds : List Char} (h : Leading ds) (hne : ds ≠ ['0']) {k : Nat} (hk : 0 < k) :
    Leading (ds.take k) where
  digits c hc := h.digits c (List.mem_of_mem_take hc)
  first := by
    obtain ⟨c, cs, rfl, hc⟩ := h.first.resolve_left hne
    exact Or.inr ⟨c, cs.take (k - 1), List.take_cons hk, hc⟩

theorem Leading.append_zeros {ds : List Char} (h : Leading ds) {k : Nat} (hk : ds = ['0'] → k = 0) :
    Leading (ds ++ List.replicate k '0') where
  digits c hc := (List.mem_append.mp hc).elim (h.digits c) isDigit_of_mem_zeros
  first := by
    obtain rfl | ⟨c, cs, rfl, hc⟩ := h.first
    · exact Or.inl (by rw [hk rfl]; rfl)
    · exact Or.inr ⟨c, _, List.cons_append, hc⟩

theorem pow_le_of_length_toDigits {n k : Nat} (hn : 0 < n)
    (h : k < (Nat.toDigits 10 n).length) : 10 ^ k ≤ n := by
  obtain rfl | hk := Nat.eq_zero_or_pos k
  · exact hn
  · exact Nat.not_lt.mp fun hlt =>
      Nat.not_le.mpr h ((Nat.length_toDigits_le_iff (by decide) hk).mpr hlt)

theorem lt_pow_length_toDigits (n : Nat) : n < 10 ^ (Nat.toDigits 10 n).length :=
  (Nat.length_toDigits_le_iff (by decide) Nat.length_toDigits_pos).mp (Nat.le_refl _)

theorem le_ofDigitChars (ds : List Char) (n : Nat) : n ≤ Nat.ofDigitChars 10 ds n := by
  induction ds generalizing n with
  | nil => exact Nat.le_refl n
  | cons c cs ih =>
    rw [Nat.ofDigitChars_cons]
    exact Nat.le_trans (by omega) (ih _)

theorem absorb_eq {ds : List Char} {n : Nat} (h : Nat.ofDigitChars 10 ds n < UInt64.size) :
    Numeral.absorb n ds = (Nat.ofDigitChars 10 ds n, []) := by
  induction ds generalizing n with
  | nil => rfl
  | cons c cs ih =>
    rw [Nat.ofDigitChars_cons] at h ⊢
    exact (if_pos (Nat.lt_of_le_of_lt (le_ofDigitChars cs _) h)).trans (ih h)

namespace Numeral

theorem parts_eq {n : Numeral} (h : natOfDigits (n.whole ++ n.fraction) < UInt64.size) :
    n.parts = (natOfDigits (n.whole ++ n.fraction),
      (n.exponent.map Exponent.value).getD 0 - n.fraction.length) := by
  rw [natOfDigits_append] at h ⊢
  have hwhole : absorb 0 n.whole = (natOfDigits n.whole, []) :=
    absorb_eq (Nat.lt_of_le_of_lt (le_ofDigitChars _ _) h)
  unfold parts
  simp only [hwhole, absorb_eq h, List.length_nil]
  congr 1
  omega

end Numeral

end ModelSchema
