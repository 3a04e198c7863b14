import Calculator.Proofs.Number.Bits
import Calculator.Proofs.Number.Shortest
import Calculator.Proofs.Session.Cells
import Calculator.Proofs.Tree.Printing

/-!
# Printed doubles are evaluated to themselves

The text that `formatNumber` writes for a double other than NaN is evaluated to that double in every
reachable session, which stays as it is (`Session.evaluate_formatNumber`). But for its sign the text
is one token, a numeral or the name of a constant; the sign is read as a negation.
-/

namespace Calculator

open Grammar

/-! ### One token with a sign -/

/-- The text is a token that is read as the tree, and does not begin with a sign. -/
structure OneToken (m : Text) (t : Tree) : Prop where
  isToken : Tree.IsToken m
  unsigned : ∀ u, m ≠ '-' :: u
  reads : ∀ {c : Cursor}, c.rest = m → ∃ d, Reads .atom t c d ∧ d.rest = []

namespace OneToken

variable {m : Text} {t : Tree}

theorem of_longest? {k : TokenKind} (inside : k.inExpression) (other : k.family ≠ .operator)
    (h : k.longest? m = some m)
    (atom : ∀ {c d : Cursor}, c.take? k = some (m, d) → Reads .atom t c d) : OneToken m t where
  isToken := ⟨k, inside, h⟩
  unsigned u hu := by
    obtain ⟨c, _, rfl, first⟩ := (TokenKind.longest?_language h).first
    obtain ⟨rfl, -⟩ := List.cons.inj hu
    exact other (Option.some.inj first).symm
  reads {c} hc := by
    have alone : Tree.join [m] = m := List.intercalate_singleton
    obtain ⟨d, taken, rest⟩ := Tree.take?_join inside h (by simp) (hc.trans alone.symm)
    exact ⟨d, atom taken, rest⟩

theorem number (h : Token.IsNumeral m) : OneToken m (.number m) :=
  of_longest? (k := .number) rfl (by decide) (TokenKind.longest?_self h) .number

theorem name (h : Token.IsName m) : OneToken m (.name m) :=
  of_longest? (k := .name) rfl (by decide) (TokenKind.longest?_self h) .name

theorem dropBlank (h : OneToken m t) : Text.dropBlank m = m := by
  obtain ⟨c, u, rfl, printable⟩ := h.isToken.exists_cons
  simp [Text.dropBlank, printable]

end OneToken

/-- A minus sign is not read as part of `--`. -/
theorem longest?_negate {m : Text} (other : ∀ u, m ≠ '-' :: u) :
    TokenKind.beforeOperand.longest? ('-' :: m) = some ['-'] := by
  have own : Operator.negate ∈ Operator.beforeOperand := by decide
  have symbols : ∀ n ∈ Operator.beforeOperand.map Operator.symbol,
      n.length ≤ 1 ∨ n = ['+', '+'] ∨ n = ['-', '-'] := by decide
  refine TokenKind.longest?_eq_some_iff.mpr ⟨⟨m, rfl⟩,
    List.mem_map_of_mem own, fun n front symbol => ?_⟩
  rcases symbols n symbol with short | rfl | rfl
  · exact short
  · obtain ⟨u, hu⟩ := front
    cases (List.cons.inj hu).1
  · obtain ⟨u, hu⟩ := front
    exact absurd (List.cons.inj hu).2.symm (other u)

namespace Session

variable {s : Session} {m : Text} {t : Tree} {v : Float}

theorem evaluate_token (sound : s.Sound) (token : OneToken m t)
    (means : t.interpret s = (.ok (.fixed v), s)) : s.evaluate m = (.ok v, s) := by
  obtain ⟨d, read, done⟩ := token.reads (c := .start m) token.dropBlank
  rw [evaluate_eq, (result_of_reads sound (read.loosen (Nat.zero_le _)) done).1, means]
  rfl

theorem evaluate_negated (sound : s.Sound) (token : OneToken m t)
    (means : t.interpret s = (.ok (.fixed v), s)) : s.evaluate ('-' :: m) = (.ok (-v), s) := by
  have taken : (Cursor.start ('-' :: m)).take? .beforeOperand =
      some (Operator.negate.symbol, (Cursor.start ('-' :: m)).pass .beforeOperand ['-']) :=
    Cursor.take?_eq_some_iff.mpr ⟨longest?_negate token.unsigned, rfl⟩
  obtain ⟨d, read, done⟩ := token.reads
    (c := (Cursor.start ('-' :: m)).pass .beforeOperand ['-']) token.dropBlank
  have signed : Reads .term (.unary .negate _ t) (.start ('-' :: m)) d :=
    .before rfl taken (.atom read)
  rw [evaluate_eq, (result_of_reads sound (signed.loosen (Nat.zero_le _)) done).1,
    Tree.interpret_unary, means]
  rfl

theorem evaluate_signed (sound : s.Sound) {c : Nat} (bound : c ≤ Binary64.infinityCode)
    (token : OneToken m t) (means : t.interpret s = (.ok (.fixed (Binary64.ofCode false c)), s))
    (negative : Bool) :
    s.evaluate (formatNumber.sign negative ++ m) = (.ok (Binary64.ofCode negative c), s) := by
  cases negative with
  | false => exact evaluate_token sound token means
  | true =>
    rw [← Binary64.neg_ofCode bound]
    exact evaluate_negated sound token means

/-! ### What is written behind the sign -/

theorem interpret_numeral {d : Decimal} (read : Decimal.read? m = some d) :
    (Tree.number m).interpret s = (.ok (.fixed (Binary64.ofCode false d.code)), s) := by
  rw [Tree.interpret, Decimal.valueOf, read]
  rfl

theorem interpret_infinity (placed : s.Placed) : (Tree.name "Infinity".toList).interpret s =
    (.ok (.fixed (Binary64.ofCode false Binary64.infinityCode)), s) := by
  have bound : s.environment.find? "Infinity".toList = some (.fixed Binary64.infinity) :=
    placed.constant (by simp [Environment.constants])
  rw [Tree.interpret_name, lookup_of_some bound]
  rfl

/-- The text of a finite double other than zero. -/
theorem evaluate_positional (sound : s.Sound) {c : Nat} (pos : 0 < c)
    (finite : c < Binary64.infinityCode) (negative : Bool) :
    s.evaluate (formatNumber.sign negative ++ (Decimal.shortest c).positional) =
      (.ok (Binary64.ofCode negative c), s) := by
  have own := Decimal.code_shortest (Nat.le_of_lt finite)
  obtain ⟨r, read, code⟩ := Decimal.read?_positional (d := Decimal.shortest c)
    (own.symm ▸ pos) (own.symm ▸ finite)
  have means := interpret_numeral (s := s) read
  rw [code, own] at means
  exact evaluate_signed sound (Nat.le_of_lt finite) (.number (Decimal.positional_isNumeral _))
    means negative

/-- A double other than NaN is printed, read and evaluated to itself; nothing else is done. -/
theorem evaluate_formatNumber (reached : s.Reachable) {v : Float} (number : v.isNaN = false) :
    s.evaluate (formatNumber v) = (.ok v, s) := by
  have bound := Binary64.code_le number
  suffices s.evaluate (formatNumber v) =
      (.ok (Binary64.ofCode (Binary64.isNegative v) (Binary64.code v)), s) by
    rw [this, Binary64.ofCode_code]
  unfold formatNumber Binary64.exact
  by_cases finite : Binary64.code v < Binary64.infinityCode
  · rw [if_pos finite]
    cases units : Binary64.units (Binary64.code v) with
    | zero =>
      have zero : Binary64.code v = 0 := Binary64.units_inj bound (Nat.zero_le _) units
      have digit : Token.IsNumeral ['0'] :=
        .plain (.whole (List.cons_ne_nil _ _) (Decimal.allDigits_zeros 1))
      rw [zero]
      exact evaluate_signed reached.sound (Nat.zero_le _) (.number digit)
        (interpret_numeral (d := ⟨0, 0⟩) (by decide)) _
    | succ u =>
      have pos : 0 < Binary64.code v := by
        rw [Nat.pos_iff_ne_zero]
        intro zero
        rw [zero] at units
        cases units
      exact evaluate_positional reached.sound pos finite _
  · have infinite : Binary64.code v = Binary64.infinityCode := by omega
    rw [if_neg finite, if_pos infinite, infinite]
    have constant : Token.IsName "Infinity".toList := .intro rfl (List.all_eq_true.mp rfl)
    exact evaluate_signed reached.sound (Nat.le_refl _) (.name constant)
      (interpret_infinity reached.placed) _

/-- The greatest negative double, in a session with a variable. -/
theorem evaluate_formatNumber_subnormal :
    let s := (Session.initial.set ['x'] 1.0).2
    let v := Float.ofBits 0x8000000000000001
    s.Reachable ∧ v.isNaN = false ∧ s.evaluate (formatNumber v) = (.ok v, s) := by
  intro s v
  have reached : s.Reachable := .set ['x'] 1.0 .initial
  have number : v.isNaN = false := by decide
  exact ⟨reached, number, evaluate_formatNumber reached number⟩

end Session

end Calculator
