import Calculator.Text.Combining
import Calculator.Text.Invisible

/-!
# Printable characters

`isPrintable` tells which characters a quoted text shows as they are: those that have a sign of
their own and do not join the character before them. Of ASCII these are all but the controls.
-/

namespace Calculator.Text

def isPrintable (c : Char) : Bool :=
  !isInvisible c && !isCombining c

theorem isPrintable_iff_of_ascii {c : Char} (h : c.toNat < 0x80) :
    isPrintable c ↔ 0x20 ≤ c.toNat ∧ c.toNat < 0x7F := by
  have hc : isCombining c = false := inRanges_cons_of_lt (by dsimp only; omega)
  have hi : isInvisible c ↔ c.toNat ≤ 0x1F ∨ 0x7F ≤ c.toNat := by
    unfold isInvisible invisibleRanges
    rw [inRanges, inRanges, inRanges_cons_of_lt (by dsimp only; omega)]
    simp only [Bool.and_eq_true, Bool.or_eq_true, decide_eq_true_eq]
    omega
  simp only [isPrintable, hc, Bool.and_eq_true, Bool.not_eq_true', Bool.not_false, and_true,
    ← Bool.not_eq_true, hi]
  omega

end Calculator.Text
