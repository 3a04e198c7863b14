import Calculator.Number.Binary64

/-!
# Rounding a double

A number of units that is a double is rounded to itself (`Binary64.roundRatio_units`), also where it
stands as a ratio that could be reduced.
-/

namespace Calculator

namespace Binary64

/-- A ratio without a rest is not rounded. -/
theorem nearestEven_mul (n : Nat) {k : Nat} (pos : 0 < k) : nearestEven (n * k) k = n := by
  unfold nearestEven
  rw [Nat.mul_div_cancel n pos, Nat.mul_mod_left]
  simp [pos]

theorem droppedBits_of_lt {n : Nat} (h : n < 2 * fractionCount) : droppedBits n = 0 := by
  unfold droppedBits fractionBits
  rcases Nat.eq_zero_or_pos n with rfl | pos
  · rfl
  · have := (Nat.log2_lt (k := 53) (by omega)).mpr h
    omega

theorem droppedBits_shiftLeft {n : Nat} (h : fractionCount ≤ n) (h' : n < 2 * fractionCount)
    (k : Nat) : droppedBits (n <<< k) = k := by
  have pos : 0 < 2 ^ k := Nat.two_pow_pos k
  have leading : (n <<< k).log2 = 52 + k := by
    have nonzero : n ≠ 0 := by
      rintro rfl
      exact absurd h (by decide)
    rw [Nat.shiftLeft_eq, Nat.log2_eq_iff (Nat.mul_ne_zero nonzero (by omega)), Nat.pow_add,
      Nat.add_right_comm, Nat.pow_add]
    exact ⟨Nat.mul_le_mul_right _ h, Nat.mul_lt_mul_of_pos_right h' pos⟩
  unfold droppedBits fractionBits
  omega

theorem roundRatio_units {c : Nat} (h : c ≤ infinityCode) {k : Nat} (pos : 0 < k) :
    roundRatio (units c * k) k = c := by
  have parts := Nat.div_add_mod c fractionCount
  have fraction := Nat.mod_lt c (show 0 < fractionCount by decide)
  unfold roundRatio
  rw [Nat.mul_div_cancel _ pos]
  unfold units
  dsimp only
  split
  case isTrue subnormal =>
    rw [subnormal, Nat.mul_zero, Nat.zero_add] at parts
    rw [droppedBits_of_lt (by omega), Nat.shiftLeft_zero, nearestEven_mul _ pos, Nat.zero_mul,
      Nat.zero_add, parts, Nat.min_eq_left h]
  case isFalse normal =>
    obtain ⟨e, he⟩ := Nat.exists_eq_succ_of_ne_zero normal
    rw [he, Nat.mul_succ, Nat.add_assoc] at parts
    rw [he, Nat.succ_sub_one, droppedBits_shiftLeft (by omega) (by omega)]
    have scaled (n : Nat) : n <<< e * k = n * k <<< e := by
      rw [Nat.shiftLeft_eq, Nat.shiftLeft_eq, Nat.mul_assoc, Nat.mul_comm k]
    have nonzero : 0 < k <<< e := by
      rw [Nat.shiftLeft_eq]
      exact Nat.mul_pos pos (Nat.two_pow_pos e)
    rw [scaled, nearestEven_mul _ nonzero, Nat.mul_comm e, parts, Nat.min_eq_left h]

theorem units_inj {c d : Nat} (hc : c ≤ infinityCode) (hd : d ≤ infinityCode)
    (same : units c = units d) : c = d := by
  rw [← roundRatio_units hc Nat.one_pos, same, roundRatio_units hd Nat.one_pos]

end Binary64

end Calculator
