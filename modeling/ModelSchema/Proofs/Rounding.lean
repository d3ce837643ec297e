import Mathlib.Algebra.Order.Ring.Nat
import Mathlib.Tactic.Ring
import ModelSchema.Json.Binary64

namespace ModelSchema

section Nearest

variable {n n' d m : Nat}

theorem div_le_nearest (n d : Nat) : n / d ≤ nearest n d := by
  unfold nearest
  split
  · exact Nat.le_refl _
  · exact Nat.le_succ _

theorem nearest_le_div_succ (n d : Nat) : nearest n d ≤ n / d + 1 := by
  unfold nearest
  split
  · exact Nat.le_succ _
  · exact Nat.le_refl _

theorem le_nearest (hd : 0 < d) (h : m * d ≤ n) : m ≤ nearest n d :=
  ((Nat.le_div_iff_mul_le hd).mpr h).trans (div_le_nearest n d)

theorem nearest_mul_left (hd : 0 < d) (m : Nat) : nearest (m * d) d = m := by
  unfold nearest
  rw [Nat.mul_mod_left, if_pos (Or.inl (by omega)), Nat.mul_div_cancel _ hd]

theorem nearest_le (hd : 0 < d) (h : n ≤ m * d) : nearest n d ≤ m := by
  obtain h | rfl := Nat.lt_or_eq_of_le h
  · exact (nearest_le_div_succ n d).trans ((Nat.div_lt_iff_lt_mul hd).mpr h)
  · exact (nearest_mul_left hd m).le

theorem nearest_mono (h : n ≤ n') : nearest n d ≤ nearest n' d := by
  obtain hlt | heq := Nat.lt_or_eq_of_le (Nat.div_le_div_right (c := d) h)
  · exact ((nearest_le_div_succ n d).trans hlt).trans (div_le_nearest n' d)
  · have hmod : n % d ≤ n' % d := by
      have hn := Nat.div_add_mod n d
      have hn' := Nat.div_add_mod n' d
      rw [heq] at hn
      omega
    unfold nearest
    rw [heq]
    split <;> split <;> omega

theorem nearest_mul_right {k : Nat} (hk : 0 < k) (n d : Nat) :
    nearest (n * k) (d * k) = nearest n d := by
  have hlt : 2 * (n % d * k) < d * k ↔ 2 * (n % d) < d := by
    rw [← Nat.mul_assoc, Nat.mul_lt_mul_right hk]
  have heq : 2 * (n % d * k) = d * k ↔ 2 * (n % d) = d := by
    rw [← Nat.mul_assoc, Nat.mul_left_inj (Nat.ne_of_gt hk)]
  unfold nearest
  simp only [Nat.mul_div_mul_right _ _ hk, Nat.mul_mod_mul_right, hlt, heq]

theorem nearest_error (hd : 0 < d) :
    2 * n ≤ 2 * (nearest n d * d) + d ∧ 2 * (nearest n d * d) ≤ 2 * n + d := by
  have hn := Nat.div_add_mod n d
  have hlt := Nat.mod_lt n hd
  rw [Nat.mul_comm] at hn
  unfold nearest
  split
  · omega
  · have hsucc : (n / d + 1) * d = n / d * d + d := Nat.succ_mul _ _
    omega

theorem nearest_eq_of_error (hlow : 2 * (m * d) < 2 * n + d) (hhigh : 2 * n < 2 * (m * d) + d) :
    nearest n d = m := by
  have hd : 0 < d := by
    by_contra h
    obtain rfl : d = 0 := by omega
    omega
  obtain ⟨herror, herror'⟩ := nearest_error (n := n) hd
  have hlt : nearest n d * d < (m + 1) * d := by
    rw [Nat.succ_mul]
    omega
  have hgt : m * d < (nearest n d + 1) * d := by
    rw [Nat.succ_mul]
    omega
  have := Nat.lt_of_mul_lt_mul_right hlt
  have := Nat.lt_of_mul_lt_mul_right hgt
  omega

end Nearest

namespace Binary64

variable {n n' d d' u w : Nat}

theorem step_pos (n : Nat) : 0 < step n :=
  Nat.two_pow_pos _

theorem log2_mono (h : n ≤ n') : n.log2 ≤ n'.log2 := by
  obtain rfl | hn := Nat.eq_zero_or_pos n
  · rw [Nat.log2_zero]
    exact Nat.zero_le _
  · exact (Nat.le_log2 (by omega)).mpr ((Nat.log2_self_le (by omega)).trans h)

theorem step_dvd_step (h : n ≤ n') : step n ∣ step n' :=
  Nat.pow_dvd_pow 2 (Nat.sub_le_sub_right (log2_mono h) 52)

theorem step_dvd_two_pow {k : Nat} (h : n.log2 ≤ k) : step n ∣ 2 ^ k :=
  Nat.pow_dvd_pow 2 (by omega)

theorem aligned_two_pow (k : Nat) : step (2 ^ k) ∣ 2 ^ k :=
  step_dvd_two_pow (by rw [Nat.log2_two_pow])

theorem round_le_of_dvd (hd : 0 < d) (hu : step (n / d) ∣ u) (h : n ≤ u * d) :
    round n d ≤ u := by
  obtain ⟨k, rfl⟩ := hu
  have hk : n ≤ k * (d * step (n / d)) := h.trans_eq (by ring)
  have hstep := step_pos (n / d)
  rw [round, Nat.mul_comm (step _)]
  exact Nat.mul_le_mul_right _ (nearest_le (Nat.mul_pos hd hstep) hk)

theorem le_round_of_dvd (hd : 0 < d) (hu : step (n / d) ∣ u) (h : u * d ≤ n) :
    u ≤ round n d := by
  obtain ⟨k, rfl⟩ := hu
  have hk : k * (d * step (n / d)) ≤ n := (Nat.le_of_eq (by ring)).trans h
  have hstep := step_pos (n / d)
  rw [round, Nat.mul_comm (step _)]
  exact Nat.mul_le_mul_right _ (le_nearest (Nat.mul_pos hd hstep) hk)

theorem round_le (hd : 0 < d) (hu : step u ∣ u) (h : n ≤ u * d) : round n d ≤ u :=
  round_le_of_dvd hd ((step_dvd_step (Nat.div_le_of_le_mul (by rwa [Nat.mul_comm]))).trans hu) h

theorem two_pow_le_round (hd : 0 < d) (hn : n / d ≠ 0) : 2 ^ (n / d).log2 ≤ round n d :=
  le_round_of_dvd hd (step_dvd_two_pow (Nat.le_refl _))
    ((Nat.mul_le_mul_right d (Nat.log2_self_le hn)).trans (Nat.div_mul_le_self n d))

theorem le_round (hd : 0 < d) (hu : step u ∣ u) (h : u * d ≤ n) : u ≤ round n d := by
  have hle : u ≤ n / d := (Nat.le_div_iff_mul_le hd).mpr h
  obtain hlt | heq := Nat.lt_or_eq_of_le (log2_mono hle)
  · obtain rfl | hpos := Nat.eq_zero_or_pos u
    · exact Nat.zero_le _
    · have hpow : u < 2 ^ (n / d).log2 := (Nat.log2_lt (by omega)).mp hlt
      exact hpow.le.trans (two_pow_le_round hd (by omega))
  · refine le_round_of_dvd hd ?_ h
    rwa [step, ← heq]

theorem round_le_two_pow (hd : 0 < d) : round n d ≤ 2 ^ ((n / d).log2 + 1) := by
  refine round_le hd (aligned_two_pow _) ?_
  exact ((Nat.div_lt_iff_lt_mul hd).mp Nat.lt_log2_self).le

/-- Rounding gives a number of the format. -/
theorem aligned_round (hd : 0 < d) : step (round n d) ∣ round n d := by
  obtain hlt | heq := Nat.lt_or_eq_of_le (round_le_two_pow (n := n) hd)
  · have hstep : step (n / d) ∣ round n d := Nat.dvd_mul_left _ _
    refine Nat.dvd_trans (Nat.pow_dvd_pow 2 (Nat.sub_le_sub_right ?_ 52)) hstep
    obtain hzero | hne := Nat.eq_zero_or_pos (round n d)
    · rw [hzero, Nat.log2_zero]
      exact Nat.zero_le _
    · exact Nat.le_of_lt_succ ((Nat.log2_lt (by omega)).mpr hlt)
  · rw [heq]
    exact aligned_two_pow _

theorem round_mul_self (hd : 0 < d) (hu : step u ∣ u) : round (u * d) d = u :=
  Nat.le_antisymm (round_le hd hu (Nat.le_refl _)) (le_round hd hu (Nat.le_refl _))

theorem round_mono (hd : 0 < d) (h : n ≤ n') : round n d ≤ round n' d := by
  have hdiv : n / d ≤ n' / d := Nat.div_le_div_right h
  obtain hlt | heq := Nat.lt_or_eq_of_le (log2_mono hdiv)
  · have hne : n' / d ≠ 0 := fun h0 => by simp [h0] at hlt
    calc round n d ≤ 2 ^ ((n / d).log2 + 1) := round_le_two_pow hd
      _ ≤ 2 ^ (n' / d).log2 := Nat.pow_le_pow_right (by decide) hlt
      _ ≤ round n' d := two_pow_le_round hd hne
  · have hstep : step (n / d) = step (n' / d) := by rw [step, heq, step]
    unfold round
    rw [hstep]
    exact Nat.mul_le_mul_right _ (nearest_mono h)

theorem round_mul_right {k : Nat} (hk : 0 < k) (n d : Nat) : round (n * k) (d * k) = round n d := by
  unfold round
  rw [Nat.mul_div_mul_right _ _ hk, Nat.mul_right_comm d k, nearest_mul_right hk]

theorem round_congr (hd : 0 < d) (hd' : 0 < d') (h : n * d' = n' * d) :
    round n d = round n' d' := by
  rw [← round_mul_right hd' n d, h, Nat.mul_comm d d', round_mul_right hd]

theorem round_eq_of_error (hu : step (n / d) ∣ u)
    (hlow : 2 * (u * d) < 2 * n + step (n / d) * d)
    (hhigh : 2 * n < 2 * (u * d) + step (n / d) * d) : round n d = u := by
  obtain ⟨k, hk⟩ := hu
  have hmul : u * d = k * (d * step (n / d)) := by
    rw [hk]
    ring
  rw [hmul, Nat.mul_comm (step _)] at hlow hhigh
  rw [round, nearest_eq_of_error hlow hhigh, hk, Nat.mul_comm]

end Binary64

end ModelSchema
