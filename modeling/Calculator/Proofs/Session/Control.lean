import Calculator.Proofs.Grammar.Simulation
import Calculator.Proofs.Session.Names
import Calculator.Session.Trace

/-!
# The text decides what is done

Which tokens a run passes, which operators it applies and how it ends depends on the text alone and
not on the variables, their values and the factorials of the session (`Session.evaluate_control`).
The rules ask a session for one thing only, whether a value is a variable; two runs agree on that
throughout.
-/

namespace Calculator

namespace Binding

theorem isVariable_map {vs us : List Binding}
    (h : List.Forall₂ (fun b b' : Binding => b.isVariable = b'.isVariable) vs us) :
    vs.map isVariable = us.map isVariable := by
  induction h with
  | nil => rfl
  | cons same _ ih => rw [List.map_cons, List.map_cons, same, ih]

end Binding

namespace Session

open Grammar

/-- Whether an operator fails, and whether it hands back a variable, depends on which operands are
variables. -/
theorem apply_isVariable {s t : Session} {op : Operator} {vs us : List Binding}
    (hl : vs.length = op.arity)
    (alike : List.Forall₂ (fun b b' : Binding => b.isVariable = b'.isVariable) vs us) :
    Alike (fun b b' : Binding => b.isVariable = b'.isVariable) Eq (s.apply op vs).1
      (t.apply op us).1 := by
  have hl' : us.length = op.arity := alike.length_eq ▸ hl
  have same := Binding.isVariable_map alike
  unfold apply
  by_cases hp : op.Permits (vs.map Binding.isVariable)
  · obtain ⟨b, m, applied, hb⟩ := Operator.apply_of_permits hl hp s.memory
    obtain ⟨b', m', applied', hb'⟩ := Operator.apply_of_permits hl' (same ▸ hp) t.memory
    rw [applied, applied']
    show b.isVariable = b'.isVariable
    rw [hb, hb', same]
  · rw [Operator.apply_of_not_permits hl hp, Operator.apply_of_not_permits hl' (same ▸ hp)]
    exact rfl

/-- Two logged runs in sessions that need not have anything in common. -/
def control : Simulation Unit actions.logged actions.logged where
  grows _ _ := True
  grows_refl _ := trivial
  grows_trans _ _ := trivial
  state _ s t := s.1.Sound ∧ t.1.Sound ∧ s.2 = t.2
  value _ b b' := b.isVariable = b'.isVariable
  value_mono _ h := h
  number _ m := number_alike (R := fun b b' => b.isVariable = b'.isVariable) (fun _ => rfl) m
  name {w s t} m := by
    rintro ⟨left, right, same⟩
    have left := left.lookup m
    have right := right.lookup m
    exact ⟨w, trivial, ⟨left.2, right.2, congrArg (Event.lookedUp m :: ·) same⟩,
      left.1.trans right.1.symm⟩
  isVariable h := h
  apply {w s t n vs us op} hl := by
    rintro ⟨left, right, same⟩ alike
    exact ⟨w, trivial, ⟨left.apply op vs, right.apply op us,
      congrArg (Event.applied op n :: ·) same⟩, apply_isVariable hl alike⟩

variable {p q : Session}

theorem run_eq_follow (s : Session) (rule : Rule) (c : Cursor) :
    rule.run actions s c =
      ⟨(s.follow rule c).outcome, (s.follow rule c).state.1, (s.follow rule c).cursor⟩ :=
  run_eq_logged actions rule s [] c

theorem follow_control (hp : p.Sound) (hq : q.Sound) (rule : Rule) (c : Cursor) :
    (p.follow rule c).cursor = (q.follow rule c).cursor ∧
    (p.follow rule c).state.2 = (q.follow rule c).state.2 ∧
    (p.follow rule c).outcome.map Binding.isVariable =
      (q.follow rule c).outcome.map Binding.isVariable := by
  obtain ⟨_, -, ⟨-, -, log⟩, cursor, alike⟩ :=
    control.run (w := ()) (s := (p, [])) (t := (q, [])) ⟨hp, hq, rfl⟩ rule c
  exact ⟨cursor, log, alike.map_eq fun _ _ same => same⟩

theorem run_control (hp : p.Sound) (hq : q.Sound) (rule : Rule) (c : Cursor) :
    (rule.run actions p c).cursor = (rule.run actions q c).cursor ∧
    (rule.run actions p c).outcome.map Binding.isVariable =
      (rule.run actions q c).outcome.map Binding.isVariable := by
  obtain ⟨cursor, -, outcome⟩ := follow_control hp hq rule c
  rw [run_eq_follow, run_eq_follow q]
  exact ⟨cursor, outcome⟩

theorem tokens_eq (s : Session) (source : Text) :
    s.tokens source = (Rule.statements.run actions s (.start source)).cursor.passed := by
  rw [run_statements, tokens]

theorem evaluate_eq_run (s : Session) (source : Text) : s.evaluate source =
    ((Rule.statements.run actions s (.start source)).outcome.map
      (Rule.statements.run actions s (.start source)).state.read,
      (Rule.statements.run actions s (.start source)).state) := by
  rw [run_statements, evaluate]
  generalize statements actions s (.start source) = r
  obtain ⟨_ | b, t, d⟩ := r <;> rfl

theorem map_eq_error_iff {ε α β : Type} {r : Except ε α} {f : α → β} {e : ε} :
    r.map f = .error e ↔ r = .error e := by
  rcases r with x | v
  · exact ⟨fun h => congrArg _ (Except.error.inj h), fun h => congrArg _ (Except.error.inj h)⟩
  · exact ⟨fun h => (nomatch h), fun h => (nomatch h)⟩

theorem eq_error_iff_of_map {ε α β : Type} {r r' : Except ε α} {f : α → β}
    (h : r.map f = r'.map f) (e : ε) : r = .error e ↔ r' = .error e := by
  rw [← map_eq_error_iff (f := f), h, map_eq_error_iff]

/-- Two evaluations of one text pass the same tokens, look up and apply the same and fail with the
same error if they fail, and two runs of one rule from one place end at the same place, with a
variable in both or in neither. -/
theorem evaluate_control (hp : p.Reachable) (hq : q.Reachable) :
    (∀ source, p.tokens source = q.tokens source ∧ p.events source = q.events source ∧
      ∀ e, (p.evaluate source).1 = .error e ↔ (q.evaluate source).1 = .error e) ∧
    ∀ (rule : Rule) (c : Cursor),
      (rule.run actions p c).cursor = (rule.run actions q c).cursor ∧
      (p.follow rule c).state.2 = (q.follow rule c).state.2 ∧
      (rule.run actions p c).outcome.map Binding.isVariable =
        (rule.run actions q c).outcome.map Binding.isVariable := by
  have rules (rule : Rule) (c : Cursor) := follow_control hp.sound hq.sound rule c
  constructor
  · intro source
    obtain ⟨cursor, log, outcome⟩ := rules .statements (.start source)
    refine ⟨?_, log, fun e => ?_⟩
    · rw [tokens_eq, tokens_eq, run_eq_follow, run_eq_follow, cursor]
    · rw [evaluate_eq_run, evaluate_eq_run, map_eq_error_iff, map_eq_error_iff, run_eq_follow,
        run_eq_follow q]
      exact eq_error_iff_of_map outcome e
  · intro rule c
    rw [run_eq_follow, run_eq_follow q]
    exact rules rule c

/-- A text that fails at its second statement, in a session that knows its name and in one that does
not. -/
theorem evaluate_control_declared :
    let q := (Session.initial.evaluate "x = 3!".toList).2
    Session.initial.Reachable ∧ q.Reachable ∧
    Session.initial.tokens "x++ + 1; true = x".toList = q.tokens "x++ + 1; true = x".toList ∧
    Session.initial.events "x++ + 1; true = x".toList = q.events "x++ + 1; true = x".toList ∧
    ∀ e, (Session.initial.evaluate "x++ + 1; true = x".toList).1 = .error e ↔
      (q.evaluate "x++ + 1; true = x".toList).1 = .error e :=
  ⟨.initial, .evaluate _ .initial,
    (evaluate_control .initial (.evaluate "x = 3!".toList .initial)).1 "x++ + 1; true = x".toList⟩

end Session

end Calculator
