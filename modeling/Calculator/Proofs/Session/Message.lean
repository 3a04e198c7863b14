import Calculator.Proofs.Session.Report
import Calculator.Proofs.Text.Quoted

/-!
# Messages

An error is known by its message: no two errors have the same one (`Error.message_inj`). The message of
an evaluation that has failed is one line (`Session.evaluate_error_message`).
-/

namespace Calculator

/-! ### Numbers in a message -/

theorem toDigits_append_inj {m n : Nat} {c : Char} {s r : Text} (ended : ¬ c.isDigit)
    (h : Nat.toDigits 10 m ++ c :: s = Nat.toDigits 10 n ++ c :: r) : m = n ∧ s = r := by
  obtain ⟨digits, behind⟩ := append_cons_inj (Token.allDigits_toDigits m)
    (Token.allDigits_toDigits n) ended ended h
  exact ⟨toDigits_inj (by decide) (by decide) digits, (List.cons.inj behind).2⟩

/-- A number at the end, behind a space. -/
theorem append_toDigits_inj {m n : Nat} {s r : Text}
    (h : s ++ ' ' :: Nat.toDigits 10 m = r ++ ' ' :: Nat.toDigits 10 n) : s = r ∧ m = n := by
  have digits (n : Nat) : ∀ c ∈ (Nat.toDigits 10 n).reverse, c.isDigit :=
    fun c hc => Token.allDigits_toDigits n c (List.mem_reverse.mp hc)
  have backward := congrArg List.reverse h
  simp only [List.reverse_append, List.reverse_cons, List.append_assoc,
    List.singleton_append] at backward
  obtain ⟨number, front⟩ := append_cons_inj (digits m) (digits n) (by decide) (by decide) backward
  have same := toDigits_inj (by decide) (by decide) (List.reverse_inj.mp number)
  exact ⟨List.reverse_inj.mp (List.cons.inj front).2, same⟩

/-! ### Errors by their messages -/

namespace Fault

/-- The first ten characters tell the kinds of faults apart. -/
theorem take_message (f : Fault) : f.message.take 10 = match f with
    | expectedOperand _ => "expected n".toList
    | unclosedParenthesis _ => "expected c".toList
    | unexpectedCharacter _ => "unexpected".toList
    | invalidNumber _ => "error pars".toList
    | immutableBinding _ => "cannot app".toList
    | invalidArity .. => "operator \"".toList := by
  cases f <;> rfl

theorem message_invalidArity (operator : Text) (expected received : Nat) :
    (invalidArity operator expected received).message = "operator ".toList ++ (Text.quote operator ++
      (" takes ".toList ++ (Nat.toDigits 10 expected ++
        ' ' :: ("operands, received ".toList ++ Nat.toDigits 10 received)))) := by
  rw [← List.append_assoc, ← List.append_assoc, ← List.append_assoc]
  exact List.append_assoc ..

theorem message_inj {f f' : Fault} (h : f.message = f'.message) : f = f' := by
  have kinds := congrArg (List.take 10) h
  rw [take_message, take_message] at kinds
  cases f <;> cases f' <;> dsimp only at kinds
  case expectedOperand.expectedOperand =>
    exact congrArg expectedOperand (List.append_cancel_left h)
  case unclosedParenthesis.unclosedParenthesis =>
    exact congrArg unclosedParenthesis (List.append_cancel_left h)
  case unexpectedCharacter.unexpectedCharacter =>
    exact congrArg unexpectedCharacter (List.append_cancel_left h)
  case invalidNumber.invalidNumber =>
    exact congrArg invalidNumber (Text.quote_inj (List.append_cancel_left h))
  case immutableBinding.immutableBinding =>
    have front := List.append_cancel_right h
    exact congrArg immutableBinding (Text.quote_inj (List.append_cancel_left front))
  case invalidArity.invalidArity =>
    rw [message_invalidArity, message_invalidArity] at h
    obtain ⟨rfl, numbers⟩ := Text.quote_append_inj (List.append_cancel_left h)
    obtain ⟨rfl, last⟩ := toDigits_append_inj (by decide) (List.append_cancel_left numbers)
    rw [toDigits_inj (by decide) (by decide) (List.append_cancel_left last)]
  -- two faults of different kinds
  all_goals exact absurd kinds (by decide)

end Fault

namespace Error

theorem message_eq (e : Error) :
    e.message = (e.fault.message ++ " at offset".toList) ++ ' ' :: Nat.toDigits 10 e.offset := by
  rw [List.append_assoc]
  exact List.append_assoc ..

/-- Whatever the fault tells of the text, the message says which fault it is, and where. -/
theorem message_inj {e e' : Error} (h : e.message = e'.message) : e = e' := by
  rw [message_eq, message_eq] at h
  obtain ⟨front, offset⟩ := append_toDigits_inj h
  have fault := Fault.message_inj (List.append_cancel_right front)
  obtain ⟨f, n⟩ := e
  obtain ⟨f', n'⟩ := e'
  obtain rfl : f = f' := fault
  obtain rfl : n = n' := offset
  rfl

end Error

/-! ### Messages of evaluations -/

theorem Text.not_mem_quote (t : Text) : '\n' ∉ quote t :=
  fun found => absurd (isPrintable_of_mem_quote found) (by decide)

theorem Fault.Fits.not_mem_message {f : Fault} {ahead : Text} {stopped : Prop}
    (h : f.Fits ahead stopped) (visible : ∀ c rest, ahead = c :: rest → ¬ Text.isBlank c) :
    '\n' ∉ f.message := by
  cases f with
  | expectedOperand found =>
    exact List.not_mem_append (by decide) (h.2.not_mem visible)
  | unclosedParenthesis found | unexpectedCharacter found =>
    exact List.not_mem_append (by decide) (h.2.1.not_mem visible)
  | immutableBinding symbol =>
    exact List.not_mem_append (List.not_mem_append (by decide) (Text.not_mem_quote symbol)) (by decide)
  | invalidNumber => exact h.elim
  | invalidArity => exact h.elim

/-- Nothing that stands in the text can break the message into lines. -/
theorem Session.evaluate_error_message {s : Session} {source : Text} {e : Error}
    (failed : (s.evaluate source).1 = .error e) : '\n' ∉ e.message := by
  obtain ⟨front, ahead, points⟩ := exists_pointsAt failed
  have fault := points.fits.not_mem_message points.visible
  exact List.not_mem_append (List.not_mem_append fault (by decide)) (not_mem_toDigits e.offset)

end Calculator
