import Calculator.Grammar.Cause
import Calculator.Proofs.Grammar.Invariant
import Calculator.Proofs.Session.Control
import Calculator.Proofs.Token.Numeral
import Calculator.Proofs.Token.Position
import Calculator.Proofs.Tree.Printing

/-!
# Errors point at their cause

An error of an evaluation stands at a character of the text, or at its end, and says what is there
(`Session.evaluate_error_pointsAt`). The faults that no text can have do not occur, whatever rule is
run and wherever it starts (`Session.run_not_internal`).
-/

namespace Calculator

open Grammar

/-! ### What a cursor shows -/

namespace Cursor

variable {c : Cursor}

theorem describes_describeNext (c : Cursor) : Describes c.describeNext c.rest := by
  unfold describeNext
  split
  case h_1 d r h =>
    refine ⟨iff_of_false (fun same => ?_) (by rw [h]; exact List.cons_ne_nil _ _), ?_⟩
    · cases congrArg List.length same
    · rw [h]
      rintro x rest same
      rw [(List.cons.inj same).1]
  case h_2 h => exact ⟨iff_of_true rfl h, fun x rest same => by rw [h] at same; cases same⟩

/-- The character of a token that is missing is not what is found instead. -/
theorem describeNext_ne {x : Char} (missing : ∀ r, c.rest ≠ x :: r) : c.describeNext ≠ ['`', x, '`'] := by
  unfold describeNext
  split
  case h_1 d r h =>
    intro same
    obtain rfl : d = x := by simpa using same
    exact missing r h
  case h_2 => exact fun same => by cases congrArg List.length same

theorem Lacks.fits {f : Fault} (h : c.Lacks f) : f.Fits c.rest True := by
  have described := c.describes_describeNext
  cases h with
  | operand => exact ⟨trivial, described⟩
  | closeParen missing =>
    refine ⟨trivial, described, describeNext_ne fun r hr => ?_⟩
    rw [hr] at missing
    cases missing
  | separator more missing =>
    refine ⟨trivial, described, more, describeNext_ne fun r hr => ?_⟩
    rw [hr] at missing
    cases missing

end Cursor

namespace Fault

theorem Fits.mono {f : Fault} {ahead : Text} {stopped stopped' : Prop} (h : f.Fits ahead stopped)
    (still : stopped → stopped') : f.Fits ahead stopped' := by
  cases f with
  | expectedOperand found | unclosedParenthesis found | unexpectedCharacter found =>
    exact ⟨still h.1, h.2⟩
  | immutableBinding symbol => exact h
  | invalidNumber token => exact h
  | invalidArity symbol expected received => exact h

end Fault

namespace Error.PointsAt

variable {source front ahead : Text} {stop : Nat} {e : Error}

theorem total (h : e.PointsAt source stop front ahead) :
    Text.extent source = e.offset + Text.extent ahead := by
  rw [h.whole, Text.extent_append, h.offset]

theorem ended_iff (h : e.PointsAt source stop front ahead) :
    ahead = [] ↔ e.offset = Text.extent source := by
  rw [h.total]
  constructor
  · rintro rfl
    rfl
  · intro last
    by_contra more
    have := Text.extent_pos more
    omega

end Error.PointsAt

namespace Session

/-! ### Errors of one run -/

/-- A numeral has a value. -/
theorem number_ne_none {t m : Text} (h : TokenKind.number.longest? t = some m) :
    actions.number m ≠ none := by
  have read := Decimal.read?_isSome_of_isNumeral (TokenKind.longest?_language h)
  intro failed
  have missing : Decimal.read? m = none := Option.map_eq_none_iff.mp failed
  rw [missing] at read
  cases read

/-- The operator's symbol stands in the source at the offset, and not behind a blank. -/
def StandsAt (source : Text) (op : Operator) (n : Nat) : Prop :=
  ∃ front ahead, source = front ++ ahead ∧ n = Text.extent front ∧ op.symbol <+: ahead ∧
    Text.dropBlank ahead = ahead

/-- The cursor stands in the source, and so does every operator that is due. -/
theorem invariant_pointsAt (source : Text) : Invariant actions
    (fun due _ c => (∃ front, c.Behind front source) ∧ ∀ p ∈ due, StandsAt source p.1 p.2)
    (fun c e => ∃ front ahead, e.PointsAt source c.offset front ahead) where
  pass _ hm h := ⟨⟨_, h.1.choose_spec.pass hm⟩, h.2⟩
  name hm h := ⟨⟨_, h.1.choose_spec.pass hm⟩, h.2⟩
  symbol {due s c k op} _ hm h := by
    obtain ⟨⟨front, behind⟩, stands⟩ := h
    have symbol : StandsAt source op c.offset :=
      ⟨front, c.rest, behind.whole, behind.offset, TokenKind.longest?_isPrefix hm, behind.visible⟩
    exact ⟨⟨_, behind.pass hm⟩, List.forall_mem_cons.mpr ⟨symbol, stands⟩⟩
  apply {due s c op n vs} hl h := by
    obtain ⟨symbol, stands⟩ := List.forall_mem_cons.mp h.2
    refine ⟨⟨h.1, stands⟩, fun f failed => ?_⟩
    obtain ⟨hw, rfl⟩ := Operator.fault_of_apply hl failed
    obtain ⟨front, ahead, whole, offset, begins, visible⟩ := symbol
    exact ⟨front, ahead, whole, offset, Text.visible_of_dropBlank visible, op, hw, rfl, begins⟩
  lacks {due s c f} missing h := by
    obtain ⟨⟨front, behind⟩, -⟩ := h
    exact ⟨front, c.rest, behind.whole, behind.offset, Text.visible_of_dropBlank behind.visible,
      missing.fits.mono fun _ => rfl⟩
  invalidNumber hm none _ := absurd none (number_ne_none hm)

theorem exists_pointsAt {s : Session} {source : Text} {e : Error}
    (failed : (s.evaluate source).1 = .error e) :
    ∃ front ahead, e.PointsAt source (s.stop source).offset front ahead := by
  have start : (∃ front, (Cursor.start source).Behind front source) ∧
      ∀ p ∈ ([] : Due), StandsAt source p.1 p.2 := ⟨⟨_, .start source⟩, by simp⟩
  have keeps := (invariant_pointsAt source).statements (s := s) start
  have outcome : (statements actions s (.start source)).outcome = .error e :=
    map_eq_error_iff.mp (valued_eq_error (evaluate_eq s source ▸ failed))
  exact (keeps.error e outcome).2

/-- An error stands in the text that is evaluated, at a character other than a blank or at the end,
and fits what stands there. -/
theorem evaluate_error_pointsAt {s : Session} {source : Text} {e : Error}
    (failed : (s.evaluate source).1 = .error e) :
    e.offset ≤ Text.extent source ∧ ∃ front ahead,
      e.PointsAt source (s.stop source).offset front ahead ∧
      (ahead = [] ↔ e.offset = Text.extent source) := by
  obtain ⟨front, ahead, points⟩ := exists_pointsAt failed
  have total := points.total
  exact ⟨by omega, front, ahead, points, points.ended_iff⟩

/-- An update of a number, behind a blank of three bytes. -/
theorem evaluate_error_pointsAt_update :
    let source := "\u3000++ 1".toList
    let e : Error := ⟨.immutableBinding "++".toList, 3⟩
    (Session.initial.evaluate source).1 = .error e ∧
      e.offset ≤ Text.extent source ∧ ∃ front ahead,
        e.PointsAt source (Session.initial.stop source).offset front ahead ∧
        (ahead = [] ↔ e.offset = Text.extent source) := by
  intro source e
  have symbol : (Cursor.start source).take? .beforeOperand = some (Operator.preIncrement.symbol, _) :=
    Cursor.take?_eq_some_iff.mpr ⟨by decide, rfl⟩
  have number : ((Cursor.start source).pass .beforeOperand "++".toList).take? .number =
      some (['1'], _) := Cursor.take?_eq_some_iff.mpr ⟨by decide, rfl⟩
  have read : Reads .term (.unary .preIncrement 3 (.number ['1'])) (.start source) _ :=
    .before rfl symbol (.atom (.number number))
  obtain ⟨result, -⟩ := result_of_reads Reachable.initial.sound (read.loosen (Nat.zero_le _)) rfl
  have failed : (Session.initial.evaluate source).1 = .error e := by
    rw [evaluate_eq, result]
    rfl
  exact ⟨failed, evaluate_error_pointsAt failed⟩

/-! ### Faults that do not occur -/

theorem invariant_not_internal :
    Invariant actions (fun _ _ _ => True) fun _ e => e.fault.isInternal = false where
  pass _ _ _ := trivial
  name _ _ := trivial
  symbol _ _ _ := trivial
  apply hl _ := ⟨trivial, fun f failed => by
    obtain ⟨-, rfl⟩ := Operator.fault_of_apply hl failed
    rfl⟩
  lacks missing _ := by cases missing <;> rfl
  invalidNumber hm none _ := absurd none (number_ne_none hm)

theorem run_not_internal {s : Session} {rule : Rule} {c : Cursor} {e : Error}
    (failed : (rule.run actions s c).outcome = .error e) : e.fault.isInternal = false :=
  ((invariant_not_internal.run rule trivial).error e failed).2

/-- No rule fails with a fault that no text can have, wherever it starts: every operator is given as
many operands as its row of the table says and is defined on so many, and every numeral has a
value. -/
theorem evaluate_not_internal :
    (∀ (s : Session) source e, (s.evaluate source).1 = .error e → e.fault.isInternal = false) ∧
    (∀ (s : Session) (rule : Rule) c e, (rule.run actions s c).outcome = .error e →
      e.fault.isInternal = false) ∧
    (∀ (s : Session) level c e, (operand actions level s c).outcome = .error e →
      e.fault.isInternal = false) ∧
    (∀ (s : Session) b c e, (updated actions b s c).outcome = .error e →
      e.fault.isInternal = false) ∧
    (∀ apply, (∀ op n vs s, vs.length = op.arity → apply op n vs s = actions.apply op n vs s) →
      ∀ (s : Session) (rule : Rule) c,
        rule.run { actions with apply } s c = rule.run actions s c) ∧
    (∀ (op : Operator) operands m f, operands.length = op.arity →
      (op.apply operands m).1 = .error f → f.isInternal = false) ∧
    ∀ t m, TokenKind.number.longest? t = some m → (Decimal.read? m).isSome := by
  have inv := invariant_not_internal
  refine ⟨fun s source e failed => ?_, fun s rule c e => run_not_internal,
    fun s level c e failed => ?_, fun s b c e failed => ?_,
    fun apply same s rule c => run_congr_apply same rule s c, fun op operands m f hl failed => ?_,
    fun t m hm => Decimal.read?_isSome_of_isNumeral (TokenKind.longest?_language hm)⟩
  · rw [evaluate_eq_run, map_eq_error_iff] at failed
    exact run_not_internal failed
  · have keeps : (operand actions level s c).Keeps _ _ [] := inv.operand level trivial
    exact (keeps.error e failed).2
  · have keeps : (updated actions b s c).Keeps _ _ [] := inv.updated b trivial
    exact (keeps.error e failed).2
  · obtain ⟨-, rfl⟩ := Operator.fault_of_apply hl failed
    rfl

end Session

end Calculator
