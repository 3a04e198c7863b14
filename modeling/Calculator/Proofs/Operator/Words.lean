import Calculator.Proofs.Number.Words
import Calculator.Proofs.Operator.Apply

/-!
# Operators on words

The bitwise operators and the shifts compute whole numbers from the words of their operands, and the
double they hand back is that number, neither rounded nor a negative zero (`Operator.apply_words`).
-/

namespace Calculator

namespace Operator

/-- The operator hands back the whole number `i` and leaves everything as it is. -/
def Gives (op : Operator) (operands : List Binding) (m : Memory) (i : ℤ) : Prop :=
  ∃ v, op.apply operands m = (.ok (.fixed v), m) ∧ Binary64.IsWhole v i

variable {op : Operator} {operands : List Binding} {m : Memory} {w : Word} {i : ℤ}

theorem gives_signed (h : op.apply operands m = (.ok (.fixed w.toFloat), m)) (value : w.toInt = i) :
    op.Gives operands m i :=
  ⟨w.toFloat, h, value ▸ w.isWhole_toFloat⟩

theorem gives_unsigned (h : op.apply operands m = (.ok (.fixed w.toFloatUnsigned), m))
    (value : (w.toNat : ℤ) = i) : op.Gives operands m i :=
  ⟨w.toFloatUnsigned, h, value ▸ w.isWhole_toFloatUnsigned⟩

/-- With `q` the value of a double, its unsigned word is the whole part of `q` modulo `2 ^ 32`, and
its signed word the same number between `-2 ^ 31` and `2 ^ 31`. Every operator on words is integer
arithmetic on these. -/
theorem apply_words :
    (∀ v : Float,
      (toUInt32 v : ℤ) = truncated (Binary64.exact v).value % 2 ^ 32 ∧
      toInt32 v = (truncated (Binary64.exact v).value).bmod (2 ^ 32)) ∧
    ∀ (x y : Binding) (m : Memory),
      let a := toInt32 (x.read m.store)
      let u := toUInt32 (x.read m.store)
      let b := toInt32 (y.read m.store)
      let k := toUInt32 (y.read m.store) % 32
      bitOr.Gives [x, y] m (a.lor b) ∧
      bitXor.Gives [x, y] m (a.xor b) ∧
      bitAnd.Gives [x, y] m (a.land b) ∧
      bitNot.Gives [x] m (-a - 1) ∧
      shl.Gives [x, y] m ((a * 2 ^ k).bmod (2 ^ 32)) ∧
      shr.Gives [x, y] m ⌊(a : ℚ) / 2 ^ k⌋ ∧
      ushr.Gives [x, y] m ⌊(u : ℚ) / 2 ^ k⌋ := by
  refine ⟨fun v => ?_, fun x y m => ?_⟩
  · rw [← Exact.truncate_eq]
    exact ⟨Word.toNat_ofFloat v, Word.toInt_ofFloat v⟩
  · exact ⟨gives_signed rfl (Word.toInt_or _ _), gives_signed rfl (Word.toInt_xor _ _),
      gives_signed rfl (Word.toInt_and _ _), gives_signed rfl (Word.toInt_complement _),
      gives_signed rfl (Word.toInt_shiftLeft _ _), gives_signed rfl (Word.toInt_shiftRight _ _),
      gives_unsigned rfl (Word.toNat_shiftRight _ _)⟩

end Operator

end Calculator
