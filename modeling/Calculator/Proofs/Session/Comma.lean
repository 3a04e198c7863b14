import Calculator.Proofs.Grammar.Onward
import Calculator.Proofs.Grammar.Progress
import Calculator.Proofs.Session.Enclosed
import Calculator.Proofs.Tree.Printing

/-!
# Commas and separators

A text that is one expression is evaluated before a `,` as it is before a `;`, and what stands behind
either of them is evaluated in the session that it leaves (`Session.evaluate_comma`).
-/

namespace Calculator

namespace Cursor

variable {c : Cursor}

theorem rest_before (rest : c.rest = []) (tail : Text) : (c.before tail).rest = tail := by
  rw [before, rest, List.nil_append]

/-- At the end of a text, behind a comma that follows it. -/
theorem within_behind_comma (rest : c.rest = []) (b : Text) : Within (c.offset + 1) (Text.extent b) []
    (.start b) ((c.before (',' :: b)).pass .operator [',']) := by
  have behind : (c.before (',' :: b)).rest.drop [','].length = b := by
    rw [rest_before rest]
    rfl
  refine .enter_last ?_ (congrArg Text.dropBlank behind)
  show c.offset + Text.extent [','] + Text.extent (Text.leadingBlank (List.drop _ _)) = _
  have one : Text.extent [','] = 1 := by decide
  rw [behind, one]

end Cursor

namespace Grammar

open Session (actions)

/-- The comma hands back its right operand, so that what follows it is read as if it stood alone. -/
theorem chain_of_comma (v : Binding) (s : Session) {c : Cursor} {b : Text} (rest : c.rest = ',' :: b) :
    chain actions .comma v s c = expression actions .loosest s (c.pass .operator [',']) := by
  have symbol : TokenKind.operator.longest? c.rest = some Operator.comma.symbol := by
    rw [rest]
    exact TokenKind.longest?_operator_comma b
  have taken : c.atLevel? .comma = some (.comma, c.pass .operator [',']) :=
    Cursor.atLevel?_eq_some_iff.mpr ⟨rfl, Cursor.take?_eq_some_iff.mpr ⟨symbol, rfl⟩⟩
  rw [chain_of_some actions taken, expression_eq]
  show ((operand actions .comma s _).andThen _).andThen _ = (operand actions .comma s _).andThen _
  generalize operand actions .comma s (c.pass .operator [',']) = r
  obtain ⟨_ | w, t, e⟩ := r
  · rfl
  · show (applyAt actions .comma [v, w] c.offset t e).andThen _ = _
    rw [applyAt_eq]
    rfl

/-- No operand begins at the end of a text or at a `;`. -/
theorem expression_of_nothing {σ β : Type} (A : Actions σ β) (l : Level) (s : σ) {c : Cursor}
    (none : ∀ k : TokenKind, Place.beforeOperand.admits k → k.longest? c.rest = none) :
    expression A l s c = .fail (.expectedOperand c.describeNext) c.offset s c := by
  have missing {k : TokenKind} (hk : Place.beforeOperand.admits k) : c.take? k = .none :=
    Cursor.take?_eq_none_iff.mpr (none k hk)
  refine expression_of_term ?_ (.of_error rfl _)
  rw [term_eq, Cursor.beforeOperand?_eq_none (none .beforeOperand rfl), parenthesized_eq,
    missing (k := .openParen) rfl]
  show atom A s c = _
  rw [atom_eq, missing (k := .number) rfl, missing (k := .name) rfl]

end Grammar

namespace Session

variable {s : Session} {a b : Text}

theorem ReadsWhole.first (h : s.ReadsWhole b) : ∃ x u, Text.dropBlank b = x :: u ∧ x ≠ ';' := by
  have failed (none : ∀ k : TokenKind, Grammar.Place.beforeOperand.admits k →
      k.longest? (Text.dropBlank b) = none) : False := by
    have read := Grammar.expression_of_nothing actions .loosest s (c := .start b) none
    cases h.refuses _ (congrArg Grammar.Result.outcome read)
  cases rest : Text.dropBlank b with
  | nil => exact (failed fun k _ => by rw [rest, TokenKind.longest?_nil]).elim
  | cons x u =>
    refine ⟨x, u, rfl, ?_⟩
    rintro rfl
    obtain ⟨m, separator⟩ : ∃ m, TokenKind.separator.longest? (Text.dropBlank b) = some m := by
      rw [rest]
      exact ⟨_, rfl⟩
    refine failed fun k hk => TokenKind.longest?_eq_none separator ?_
    cases k <;> first | decide | cases hk

/-- An error of a refused write does not tell what stands behind the text. -/
theorem ReadsWhole.within_eq (h : s.ReadsWhole a) {e : Error} (failed : (s.result a).1 = .error e)
    (tail : Text) : e.within 0 tail = e := by
  rw [h.result] at failed
  have refused := h.refuses e failed
  obtain ⟨fault, n⟩ := e
  cases fault with
  | immutableBinding symbol => rfl
  | _ => cases refused

theorem ReadsWhole.offset (h : s.ReadsWhole a) (v : Binding)
    (ended : (Grammar.expression actions .loosest s (.start a)).outcome = .ok v) :
    (Grammar.expression actions .loosest s (.start a)).cursor.offset = Text.extent a := by
  have reaches := Grammar.reaches_run actions ⟨.expression .loosest, s, .start a⟩
  have total := reaches.offset.trans (Cursor.Behind.start a).total
  change _ + Text.extent (Grammar.expression actions .loosest s (.start a)).cursor.rest = _ at total
  rwa [h.atEnd v ended, Text.extent_nil, Nat.add_zero] at total

/-- Behind a `,` a text is evaluated in the session that the text before it leaves. -/
theorem result_comma (ha : s.ReadsWhole a) (b : Text) : s.result (a ++ ',' :: b) =
    match s.result a with
    | (.ok _, t) => ((t.result b).1.mapError (Error.delayed (Text.extent a + 1)), (t.result b).2)
    | (.error e, t) => (.error e, t) := by
  have read := Grammar.expression_before_comma actions s (.start a) b
  rw [← Cursor.start_append rfl] at read
  have atEnd := ha.atEnd
  have refuses := ha.refuses
  have offset := ha.offset
  rw [ha.result, result, Grammar.statements]
  generalize Grammar.expression actions .loosest s (.start a) = r at read atEnd refuses offset
  generalize Grammar.expression actions .loosest s (.start (a ++ ',' :: b)) = q at read
  rcases read with ⟨e, failed, other⟩ | rfl
  · exact absurd (refuses e failed) other
  obtain ⟨e | v, t, d⟩ := r
  · rfl
  · have rest : d.rest = [] := atEnd v rfl
    have within := Cursor.within_behind_comma rest b
    rw [show d.offset = _ from offset v rfl] at within
    have goesOn : (Grammar.Result.before (',' :: b) ⟨.ok v, t, d⟩).andThen
        (Grammar.chain actions .comma) = _ := Grammar.chain_of_comma v t (Cursor.rest_before rest _)
    rw [goesOn]
    exact Grammar.eq_of_ends (Grammar.Lockstep.statements (Grammar.inside_separates _ _) rfl within)

/-- Two expressions do the same with a `,` between them as with a `;`. -/
theorem evaluate_comma (ha : s.ReadsWhole a) (hb : s.ReadsWhole b) :
    s.evaluate (a ++ ',' :: b) = s.evaluate (a ++ ';' :: b) := by
  obtain ⟨x, u, first, hx⟩ := hb.first
  have same (e : Error) := ha.within_eq (e := e)
  rw [evaluate_eq, evaluate_eq, result_comma ha, result_sequence first hx]
  generalize s.result a = r at same ⊢
  obtain ⟨e | v, t⟩ := r
  · dsimp only
    rw [same e rfl]
  · rfl

/-- An update, and behind it two expressions with a comma of their own. -/
theorem evaluate_comma_updates :
    let a := "x++".toList
    let b := " --x, 2".toList
    Session.initial.ReadsWhole a ∧ Session.initial.ReadsWhole b ∧
      Session.initial.evaluate (a ++ ',' :: b) = Session.initial.evaluate (a ++ ';' :: b) := by
  have sound := Reachable.initial.sound
  have postIncrement : Grammar.Reads .atom (.unary .postIncrement _ (.name "x".toList))
      (.start "x++".toList) _ := .updated rfl rfl rfl rfl
  have preDecrement : Grammar.Reads .term (.unary .preDecrement _ (.name "x".toList))
      (.start " --x, 2".toList) _ := .before rfl rfl (.atom (.name rfl))
  have number {c d : Cursor} (taken : c.take? .number = some ("2".toList, d)) :
      Grammar.Reads (.operand .comma) (.number "2".toList) c d :=
    (Grammar.Reads.number taken).loosen (by decide)
  have joined : Grammar.Reads (.expression .comma) _ (.start " --x, 2".toList) _ :=
    .leftGrouping rfl rfl rfl (preDecrement.loosen (Nat.zero_le _)) rfl (number rfl)
  have ha := ReadsWhole.of_reads sound (postIncrement.loosen (Nat.zero_le _)) rfl
  have hb := ReadsWhole.of_reads sound joined rfl
  exact ⟨ha, hb, evaluate_comma ha hb⟩

end Session

end Calculator
