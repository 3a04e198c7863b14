import Calculator.Number.Binary64
import Mathlib.Data.Rat.Floor
import Mathlib.Tactic.Positivity

/-!
# Values of doubles

The rational number that a finite double is, and what it means for a double to be a given whole
number.
-/

namespace Calculator

/-- `0` for what is not finite. -/
def Exact.value : Exact → ℚ
  | .finite negative units =>
    let magnitude : ℚ := units / 2 ^ Binary64.unitBits
    if negative then -magnitude else magnitude
  | _ => 0

/-- The whole part of a number, toward zero. -/
def truncated (q : ℚ) : ℤ :=
  if 0 ≤ q then ⌊q⌋ else ⌈q⌉

/-- `v` is the whole number `i`, exactly; the negative zero is not `0`. -/
def Binary64.IsWhole (v : Float) (i : ℤ) : Prop :=
  exact v = .finite (decide (i < 0)) (i.natAbs <<< unitBits)

theorem truncated_neg (q : ℚ) : truncated (-q) = -truncated q := by
  unfold truncated
  rcases lt_trichotomy q 0 with below | rfl | above
  · rw [if_pos (by linarith), if_neg (by linarith), Int.floor_neg]
  · rfl
  · rw [if_neg (by linarith), if_pos (by linarith), Int.ceil_neg]

theorem truncated_units (u : ℕ) :
    truncated (u / 2 ^ Binary64.unitBits) = ↑(u >>> Binary64.unitBits) := by
  have quotient := Rat.floor_intCast_div_natCast u (2 ^ Binary64.unitBits)
  rw [Nat.shiftRight_eq_div_pow, truncated, if_pos (by positivity)]
  push_cast at quotient ⊢
  exact quotient

theorem Exact.truncate_eq (e : Exact) : e.truncate = truncated e.value := by
  match e with
  | .nan | .infinite _ => rfl
  | .finite false u => exact (truncated_units u).symm
  | .finite true u =>
    show -((u >>> Binary64.unitBits : ℕ) : ℤ) = truncated (-(u / 2 ^ Binary64.unitBits))
    rw [truncated_neg, truncated_units]

theorem Binary64.IsWhole.value {v : Float} {i : ℤ} (h : IsWhole v i) : (exact v).value = i := by
  have magnitude : ((i.natAbs <<< unitBits : ℕ) : ℚ) / 2 ^ unitBits = |(i : ℚ)| := by
    rw [Nat.shiftLeft_eq, Nat.cast_mul, Nat.cast_pow, Nat.cast_ofNat, Nat.cast_natAbs, Int.cast_abs,
      mul_div_cancel_right₀ _ (by positivity)]
  rw [h]
  unfold Exact.value
  simp only [magnitude]
  by_cases negative : i < 0
  · rw [if_pos (decide_eq_true negative), abs_of_neg (by exact_mod_cast negative), neg_neg]
  · rw [if_neg (by simp [negative]), abs_of_nonneg (by exact_mod_cast not_lt.mp negative)]

end Calculator
