import Calculator.Proofs.Session.Enclosed
import Calculator.Proofs.Tree.Printing

/-!
# Both operands are evaluated

Whichever operator of two operands joins two expressions, unless it writes, both are evaluated, the
second one behind the first one, with the same effects and the same errors as by themselves
(`Session.evaluate_eager`). In particular `||` and `&&` spare nothing of their second operand.
-/

namespace Calculator

namespace Operator

/-- Two texts in parentheses with the operator between them. -/
def between (op : Operator) (a b : Text) : Text :=
  "(".toList ++ a ++ ") ".toList ++ op.symbol ++ " (".toList ++ b ++ ")".toList

theorem between_eq (op : Operator) (a b : Text) : op.between a b =
    '(' :: (a ++ ')' :: ' ' :: (op.symbol ++ ' ' :: '(' :: (b ++ [')']))) := by
  simp [between]

end Operator

namespace Session

open Grammar (writes)

variable {s : Session} {op : Operator} {a b : Text}

theorem applyAt_of_not_writes (binary : op.arity = 2) (hw : writes op = false) (v w : Binding)
    (n : Nat) (c : Cursor) : ∃ u, Grammar.applyAt actions op [v, w] n s c = .ok u s c := by
  have applied := Operator.applyBinary_cases binary v w s.memory
  rw [← Operator.apply_binary binary] at applied
  rcases applied with ⟨hw', -⟩ | ⟨-, -, applied⟩ | ⟨-, -, x, applied⟩
  · cases hw.symm.trans hw'
  · exact ⟨w, Grammar.applyAt_of_ok applied n c⟩
  · exact ⟨.fixed x, Grammar.applyAt_of_ok applied n c⟩

/-- The first text is the left operand. -/
theorem term_between (ha : s.ReadsWhole a) (op : Operator) (b : Text) :
    match s.result a with
    | (.ok v, t) => ∃ d, Grammar.term actions s (.start (op.between a b)) = .ok v t d ∧
        d.rest = op.symbol ++ ' ' :: '(' :: (b ++ [')']) ∧ d.offset = Text.extent a + 3
    | (.error e, t) => ∃ d,
        Grammar.term actions s (.start (op.between a b)) = ⟨.error (e.delayed 1), t, d⟩ := by
  have symbol := TokenKind.language_symbol op
  have starts : (Cursor.start (op.between a b)).offset = 0 ∧ (Cursor.start (op.between a b)).rest =
      '(' :: (a ++ ')' :: ' ' :: (op.symbol ++ ' ' :: '(' :: (b ++ [')']))) := by
    rw [op.between_eq]
    exact ⟨rfl, rfl⟩
  have enclosed := Grammar.term_enclosed ha starts.2
  generalize s.result a = r at enclosed ⊢
  obtain ⟨e | v, t⟩ := r
  · rwa [starts.1] at enclosed
  · obtain ⟨d, read, rest, offset⟩ := enclosed
    have blank : Text.leadingBlank (' ' :: (op.symbol ++ ' ' :: '(' :: (b ++ [')']))) = [' '] :=
      congrArg (' ' :: ·) (symbol.leadingBlank (by decide) _)
    have one : Text.extent [' '] = 1 := by decide
    rw [starts.1, blank, one] at offset
    exact ⟨d, read, rest.trans (symbol.dropBlank (by decide) _), by omega⟩

/-- What an operator between two texts comes to, by what the texts come to one after the other. -/
theorem result_between (binary : op.arity = 2) (hw : writes op = false) (sound : s.Sound)
    (ha : s.ReadsWhole a) (hb : s.ReadsWhole b) :
    match s.result a with
    | (.error e, t) => s.result (op.between a b) = (.error (e.delayed 1), t)
    | (.ok _, t) =>
      match t.result b with
      | (.error e, u) => s.result (op.between a b) =
          (.error (e.delayed (Text.extent a + Text.extent op.symbol + 5)), u)
      | (.ok _, u) => ∃ w, s.result (op.between a b) = (.ok w, u) := by
  obtain ⟨l, placed⟩ := op.placement_of_binary binary
  have hl : op.level? = some l := Operator.level?_eq_some_iff.mpr placed
  have first := term_between ha op b
  have kept := sound.result a
  generalize s.result a = r at first kept ⊢
  obtain ⟨e | v, t⟩ := r
  · obtain ⟨d, read⟩ := first
    exact result_of_expression (Grammar.expression_of_term read (.of_error rfl _)) nofun
  obtain ⟨d, read, rest, offset⟩ := first
  have second := Grammar.expression_joined_enclosed (k := .loosest) read hl binary (Nat.zero_le _)
    (hb.of_sound sound kept) rest
  dsimp only
  generalize t.result b = q at second ⊢
  obtain ⟨e | w, u⟩ := q
  · obtain ⟨f, whole⟩ := second
    have place : d.offset + Text.extent op.symbol + 2 =
        Text.extent a + Text.extent op.symbol + 5 := by omega
    rw [place] at whole
    exact result_of_expression whole nofun
  · obtain ⟨f, frest, whole⟩ := second
    obtain ⟨x, applied⟩ := applyAt_of_not_writes binary hw v w d.offset f
    exact ⟨x, result_of_expression (whole.trans applied) fun _ _ => frest⟩

/-- Two operators that write nothing have the same effects between the same two texts: those of the
first text and then, if it succeeds, of the second. Both succeed or both fail, and an error of the
second text stands as far apart as the symbols differ in length. -/
theorem evaluate_eager {op' : Operator} (binary : op.arity = 2) (binary' : op'.arity = 2)
    (hw : writes op = false) (hw' : writes op' = false) (reached : s.Reachable)
    (ha : s.ReadsWhole a) (hb : s.ReadsWhole b) :
    match s.evaluate a with
    | (.error e, t) =>
      s.evaluate (op.between a b) = (.error (e.delayed 1), t) ∧
        s.evaluate (op'.between a b) = (.error (e.delayed 1), t)
    | (.ok _, t) =>
      match t.evaluate b with
      | (.error e, u) =>
        s.evaluate (op.between a b) =
            (.error (e.delayed (Text.extent a + Text.extent op.symbol + 5)), u) ∧
          s.evaluate (op'.between a b) =
            (.error (e.delayed (Text.extent a + Text.extent op'.symbol + 5)), u)
      | (.ok _, u) => ∃ v w,
        s.evaluate (op.between a b) = (.ok v, u) ∧ s.evaluate (op'.between a b) = (.ok w, u) := by
  have joined := result_between binary hw reached.sound ha hb
  have joined' := result_between binary' hw' reached.sound ha hb
  simp only [evaluate_eq]
  generalize s.result a = r at joined joined' ⊢
  obtain ⟨e | v, t⟩ := r
  · exact ⟨congrArg valued joined, congrArg valued joined'⟩
  dsimp only [valued, Except.map] at joined joined' ⊢
  generalize t.result b = q at joined joined' ⊢
  obtain ⟨e | w, u⟩ := q
  · exact ⟨congrArg valued joined, congrArg valued joined'⟩
  · obtain ⟨x, joined⟩ := joined
    obtain ⟨x', joined'⟩ := joined'
    exact ⟨_, _, congrArg valued joined, congrArg valued joined'⟩

/-- Updates of one variable on both sides of `||` and of `+`. -/
theorem evaluate_eager_or :
    let a := "x++".toList
    let b := "--x".toList
    Operator.or.arity = 2 ∧ Operator.add.arity = 2 ∧ writes .or = false ∧ writes .add = false ∧
    Session.initial.Reachable ∧ Session.initial.ReadsWhole a ∧ Session.initial.ReadsWhole b ∧
    match Session.initial.evaluate a with
    | (.error e, t) =>
      Session.initial.evaluate (Operator.or.between a b) = (.error (e.delayed 1), t) ∧
        Session.initial.evaluate (Operator.add.between a b) = (.error (e.delayed 1), t)
    | (.ok _, t) =>
      match t.evaluate b with
      | (.error e, u) =>
        Session.initial.evaluate (Operator.or.between a b) =
            (.error (e.delayed (Text.extent a + Text.extent Operator.or.symbol + 5)), u) ∧
          Session.initial.evaluate (Operator.add.between a b) =
            (.error (e.delayed (Text.extent a + Text.extent Operator.add.symbol + 5)), u)
      | (.ok _, u) => ∃ v w,
        Session.initial.evaluate (Operator.or.between a b) = (.ok v, u) ∧
          Session.initial.evaluate (Operator.add.between a b) = (.ok w, u) := by
  have sound := Reachable.initial.sound
  have postIncrement : Grammar.Reads .atom (.unary .postIncrement _ (.name "x".toList))
      (.start "x++".toList) _ := .updated rfl rfl rfl rfl
  have preDecrement : Grammar.Reads .term (.unary .preDecrement _ (.name "x".toList))
      (.start "--x".toList) _ := .before rfl rfl (.atom (.name rfl))
  have ha := ReadsWhole.of_reads sound (postIncrement.loosen (Nat.zero_le _)) rfl
  have hb := ReadsWhole.of_reads sound (preDecrement.loosen (Nat.zero_le _)) rfl
  exact ⟨rfl, rfl, rfl, rfl, .initial, ha, hb, evaluate_eager rfl rfl rfl rfl .initial ha hb⟩

end Session

end Calculator
