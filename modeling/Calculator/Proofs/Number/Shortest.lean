import Calculator.Number.Shortest
import Calculator.Proofs.Number.Rounding
import Calculator.Proofs.Token.Numeral

/-!
# Printed decimals are read back

`Decimal.shortest` has the code it was asked for (`Decimal.code_shortest`), and what
`Decimal.positional` writes is a numeral that is read as a decimal with the same code
(`Decimal.read?_positional`).
-/

namespace Calculator

namespace Decimal

open Binary64 Token

/-! ### The shortest decimal -/

theorem code_exactly {c : Nat} (h : c ≤ infinityCode) : (exactly (units c)).code = c := by
  -- the exponent stays a variable, so that no power is computed
  obtain ⟨n, hn⟩ : ∃ n, unitBits = n + 1 := ⟨1073, rfl⟩
  have ten : 0 < Nat.pow 10 (n + 1) := Nat.pow_pos (by decide)
  have five : 0 < Nat.pow 5 (n + 1) := Nat.pow_pos (by decide)
  have exponent : -(unitBits : Int) = .negSucc n := by
    rw [hn]
    rfl
  unfold exactly code
  rw [exponent, hn]
  dsimp only
  split
  case isTrue zero =>
    have none : units c = units 0 := (Nat.mul_eq_zero.mp zero).resolve_right (Nat.ne_of_gt five)
    exact (units_inj h (Nat.zero_le _) none).symm
  case isFalse =>
    have scaled : (units c * Nat.pow 5 (n + 1)) <<< (n + 1) = units c * Nat.pow 10 (n + 1) := by
      rw [Nat.shiftLeft_eq, Nat.mul_assoc]
      exact congrArg _ (Nat.mul_pow 5 2 (n + 1)).symm
    rw [scaled, roundRatio_units h ten]

theorem code_shortest {c : Nat} (h : c ≤ infinityCode) : (shortest c).code = c := by
  unfold shortest
  dsimp only
  generalize hr : List.find? _ _ = r
  cases r with
  | none => exact code_exactly h
  | some d =>
    have found := List.find?_some hr
    exact of_decide_eq_true found

/-! ### Digits -/

theorem allDigits_zeros (n : Nat) : AllDigits (List.replicate n '0') := by
  intro c hc
  rw [List.eq_of_mem_replicate hc]
  rfl

theorem ofDigits_zeros_append (n m : Nat) :
    ofDigits (List.replicate n '0' ++ Nat.toDigits 10 m) = m := by
  show Nat.ofDigitChars 10 _ 0 = m
  rw [Nat.ofDigitChars_append, Nat.ofDigitChars_replicate_zero, Nat.mul_zero,
    Nat.ofDigitChars_ten_toDigits]

theorem ofDigits_append_zeros (m n : Nat) :
    ofDigits (Nat.toDigits 10 m ++ List.replicate n '0') = m * Nat.pow 10 n := by
  show Nat.ofDigitChars 10 _ 0 = _
  rw [Nat.ofDigitChars_append, Nat.ofDigitChars_ten_toDigits, Nat.ofDigitChars_replicate_zero]
  exact Nat.mul_comm _ m

/-! ### Reading what is written -/

theorem positional_ofNat (m n : Nat) :
    positional ⟨m, .ofNat n⟩ = Nat.toDigits 10 m ++ List.replicate n '0' := rfl

/-- Digits before a point and behind it, as many of these as the exponent asks for. -/
theorem exists_positional_negSucc (m n : Nat) :
    ∃ whole fraction, positional ⟨m, .negSucc n⟩ = whole ++ '.' :: fraction ∧ whole ≠ [] ∧
      AllDigits whole ∧ AllDigits fraction ∧ ofDigits (whole ++ fraction) = m ∧
      fraction.length = n + 1 := by
  let zeros := n + 1 + 1 - (Nat.toDigits 10 m).length
  let padded := List.replicate zeros '0' ++ Nat.toDigits 10 m
  have digits : AllDigits padded :=
    List.forall_mem_append.mpr ⟨allDigits_zeros zeros, allDigits_toDigits m⟩
  have length : n + 1 < padded.length := by
    simp only [padded, zeros, List.length_append, List.length_replicate]
    omega
  refine ⟨padded.take (padded.length - (n + 1)), padded.drop (padded.length - (n + 1)), rfl, ?_,
    fun c hc => digits c (List.mem_of_mem_take hc), fun c hc => digits c (List.mem_of_mem_drop hc),
    ?_, ?_⟩
  · rw [← List.length_pos_iff, List.length_take]
    omega
  · rw [List.take_append_drop]
    exact ofDigits_zeros_append zeros m
  · rw [List.length_drop]
    omega

theorem positional_isNumeral (d : Decimal) : IsNumeral d.positional := by
  obtain ⟨m, n | n⟩ := d
  · rw [positional_ofNat]
    exact .plain (.whole (List.append_ne_nil_of_left_ne_nil Nat.toDigits_ne_nil _)
      (List.forall_mem_append.mpr ⟨allDigits_toDigits m, allDigits_zeros n⟩))
  · obtain ⟨whole, fraction, written, hn, hw, hf, -⟩ := exists_positional_negSucc m n
    rw [written]
    exact .plain (.pointed hn hw hf)

theorem code_ofNat {m n : Nat} (pos : m ≠ 0) (below : n < hugeExponent) :
    code ⟨m, .ofNat n⟩ = roundRatio ((m * Nat.pow 10 n) <<< unitBits) 1 := by
  unfold code
  rw [if_neg pos]
  exact if_neg (Nat.not_le.mpr below)

/-- What is written is read as another decimal if its exponent is positive, and the same code. -/
theorem read?_positional {d : Decimal} (pos : 0 < d.code) (finite : d.code < infinityCode) :
    ∃ r, read? d.positional = some r ∧ r.code = d.code := by
  obtain ⟨m, n | n⟩ := d
  · have nonzero : m ≠ 0 := by
      rintro rfl
      exact Nat.lt_irrefl 0 pos
    have below : n < hugeExponent := by
      rw [← Nat.not_le]
      intro huge
      have infinite : code ⟨m, .ofNat n⟩ = infinityCode := (if_neg nonzero).trans (if_pos huge)
      exact Nat.ne_of_lt finite infinite
    have digits : AllDigits (Nat.toDigits 10 m ++ List.replicate n '0') :=
      List.forall_mem_append.mpr ⟨allDigits_toDigits m, allDigits_zeros n⟩
    refine ⟨⟨m * Nat.pow 10 n, .ofNat 0⟩, ?_, ?_⟩
    · rw [positional_ofNat,
        read?_digits (List.append_ne_nil_of_left_ne_nil Nat.toDigits_ne_nil _) digits,
        ofDigits_append_zeros]
      rfl
    · have ten : 0 < Nat.pow 10 n := Nat.pow_pos (by decide)
      have scaled : m * Nat.pow 10 n ≠ 0 := Nat.mul_ne_zero nonzero (Nat.ne_of_gt ten)
      rw [code_ofNat scaled (by decide), code_ofNat nonzero below]
      exact congrArg (fun u => roundRatio (u <<< unitBits) 1) (Nat.mul_one _)
  · obtain ⟨whole, fraction, written, hn, hw, hf, value, length⟩ := exists_positional_negSucc m n
    refine ⟨⟨m, .negSucc n⟩, ?_, rfl⟩
    rw [written, read?_pointed hn hw hf, value, length]
    rfl

end Decimal

end Calculator
