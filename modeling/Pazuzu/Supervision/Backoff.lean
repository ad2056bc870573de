import Pazuzu.Supervision.Runs

/-! The delay after a failed repair, for any number of failures in a row. -/
namespace Pazuzu

open Asyncio Python

theorem ofInt_two_pow (k : Nat) :
    Magnitude.ofInt (2 ^ k) = if k < 1024 then some (2 ^ k) else none := by
  have hNearest : nearestDouble (2 ^ k) = 2 ^ k := by
    simpa using nearestDouble_mul_two_pow 1 k (by norm_num)
  unfold Magnitude.ofInt doubleLimit
  rw [hNearest]
  simp only [Nat.pow_lt_pow_iff_right (show 1 < 2 by norm_num)]

/-- A product beyond the largest double is capped like any other. -/
theorem product_atMost (k : Nat) : (Magnitude.product 5 (2 ^ k)).atMost 60 = min 60 (5 * 2 ^ k) := by
  have hCap : 60 < doubleLimit := by
    unfold doubleLimit
    have hLarge := Nat.lt_two_pow_self (n := 1024)
    omega
  unfold Magnitude.product Magnitude.ofNearest
  rw [nearestDouble_mul_two_pow 5 k (by norm_num)]
  generalize 5 * 2 ^ k = delay
  unfold Magnitude.atMost
  by_cases hSmall : delay < doubleLimit
  · rw [if_pos hSmall]
    dsimp only
    split <;> omega
  · rw [if_neg hSmall]
    dsimp only
    omega

/-- The delay doubles up to its cap, as long as the power fits in a double. -/
theorem boundedBackoff_eq (failures : Nat) :
    boundedBackoff failures =
      if failures ≤ 1024 then some (min 60 (5 * 2 ^ (failures - 1))) else none := by
  unfold boundedBackoff
  rw [ofInt_two_pow]
  by_cases hFits : failures ≤ 1024
  · rw [if_pos hFits, if_pos (by omega), Option.map_some, product_atMost]
  · rw [if_neg hFits, if_neg (by omega), Option.map_none]

/-- After fewer failures there is a delay too, and no longer one. -/
theorem boundedBackoff_mono {earlier failures delay : Nat} (hEarlier : earlier ≤ failures)
    (h : boundedBackoff failures = some delay) :
    ∃ before, boundedBackoff earlier = some before ∧ before ≤ delay := by
  rw [boundedBackoff_eq] at h ⊢
  split at h
  · next hFits =>
      obtain rfl := Option.some.inj h
      have hPower : 2 ^ (earlier - 1) ≤ 2 ^ (failures - 1) :=
        Nat.pow_le_pow_right (by norm_num) (by omega)
      refine ⟨_, if_pos (hEarlier.trans hFits), ?_⟩
      omega
  · cases h

end Pazuzu
