import Calculator.Proofs.Session.Acceptance
import Calculator.Proofs.Session.Cells
import Calculator.Proofs.Session.Enclosed
import Calculator.Proofs.Tree.Printing

/-!
# Compound assignments

A compound assignment to a variable does what assigning the result of its base operator does
(`Session.evaluate_compound`): `x += (e)` and `x = x + (e)` come to the same, whatever `e` does with
the variable. Both look the variable up before `e` is evaluated and read it afterwards.
-/

namespace Calculator

namespace Operator

/-- The text `x op (e)`. -/
def applied (op : Operator) (x e : Text) : Text :=
  x ++ " ".toList ++ op.symbol ++ " (".toList ++ e ++ ")".toList

/-- The text `x = x op (e)`. -/
def assigned (op : Operator) (x e : Text) : Text :=
  x ++ " = ".toList ++ op.applied x e

theorem applied_eq (op : Operator) (x e : Text) :
    op.applied x e = x ++ ' ' :: (op.symbol ++ ' ' :: '(' :: (e ++ [')'])) := by
  simp [applied]

theorem assigned_eq (op : Operator) (x e : Text) :
    op.assigned x e = x ++ ' ' :: (assign.symbol ++ ' ' :: op.applied x e) := by
  simp [assigned, show assign.symbol = ['='] from rfl]

variable {op base : Operator}

theorem level?_compound (h : op.compoundBase? = some base) :
    op.level? = some .assignment ∧ op.arity = 2 := by
  cases op <;> first | exact ⟨rfl, rfl⟩ | cases h

theorem level?_base (h : op.compoundBase? = some base) :
    (∃ l, base.level? = some l ∧ Level.assignment.rank ≤ l.rank) ∧ base.arity = 2 := by
  cases op <;> cases h <;> exact ⟨⟨_, rfl, by decide⟩, rfl⟩

/-- To a variable, both write what the base operator gives. -/
theorem apply_compound (h : op.compoundBase? = some base) (c : Cell) (w : Binding) (m : Memory) :
    ∃ v m', base.apply [.cell c, w] m = (.ok (.fixed v), m) ∧
      op.apply [.cell c, w] m = (.ok (.cell c), m') ∧
      assign.apply [.cell c, .fixed v] m = (.ok (.cell c), m') := by
  cases op <;> cases h <;> exact ⟨_, _, rfl, rfl, rfl⟩

end Operator

namespace Session

open Grammar (term expression)

variable {s : Session} {op base : Operator} {x e : Text}

/-- A name with an operator behind it is a term of its own. -/
theorem term_of_joined_name {l : Level} {c : Cursor} {u : Text} (name : TokenKind.name.Language x)
    (hl : op.level? = some l) (hc : c.rest = x ++ ' ' :: (op.symbol ++ ' ' :: u)) :
    ∃ d, d.rest = op.symbol ++ ' ' :: u ∧
      term actions s c = .ok (s.lookup x).1 (s.lookup x).2 d := by
  have symbol := TokenKind.language_symbol op
  obtain ⟨d, taken, rest, -⟩ :=
    Cursor.take?_spaced rfl name (symbol.leadingBlank (by decide) _) hc
  have next : d.take? .operator = some (op.symbol, d.pass .operator op.symbol) := by
    refine Cursor.take?_eq_some_iff.mpr ⟨?_, rfl⟩
    rw [rest, TokenKind.longest?_append_cons rfl (by decide), TokenKind.longest?_self symbol]
  exact ⟨d, rest, Grammar.term_of_name taken (.of_operator hl next (Nat.lt_succ_self _))⟩

variable {v w b : Binding} {t u : Session} {m : Memory} {l : Level}

/-- An operator is applied to what the name was bound to before the expression, and in the session
behind the expression. -/
theorem expression_applied {k : Level} {c : Cursor} (name : TokenKind.name.Language x)
    (hl : op.level? = some l) (binary : op.arity = 2) (looser : k.rank ≤ l.rank)
    (hc : c.rest = op.applied x e) (found : s.lookup x = (v, t)) (whole : t.ReadsWhole e)
    (value : t.result e = (.ok w, u)) (applied : op.apply [v, w] u.memory = (.ok b, m)) :
    ∃ f, f.rest = [] ∧ expression actions k s c = .ok b { u with memory := m } f := by
  obtain ⟨d, rest, left⟩ := term_of_joined_name (s := s) name hl (hc.trans (op.applied_eq x e))
  rw [found] at left
  have joined := Grammar.expression_joined_enclosed (k := k) left hl binary looser whole rest
  rw [value] at joined
  obtain ⟨f, frest, joined⟩ := joined
  exact ⟨f, frest, joined.trans (Grammar.applyAt_of_ok applied _ _)⟩

theorem result_applied (name : TokenKind.name.Language x) (hl : op.level? = some l)
    (binary : op.arity = 2) (found : s.lookup x = (v, t)) (whole : t.ReadsWhole e)
    (value : t.result e = (.ok w, u)) (applied : op.apply [v, w] u.memory = (.ok b, m)) :
    s.result (op.applied x e) = (.ok b, { u with memory := m }) := by
  have start : (Cursor.start (op.applied x e)).rest = op.applied x e := by
    rw [op.applied_eq]
    exact name.dropBlank (by decide) _
  obtain ⟨f, rest, read⟩ := expression_applied (k := .loosest) name hl binary (Nat.zero_le _) start
    found whole value applied
  exact result_of_expression read fun _ _ => rest

/-- Behind the `=` the name is looked up a second time. -/
theorem result_assigned {b' : Binding} (name : TokenKind.name.Language x) (hl : base.level? = some l)
    (binary : base.arity = 2) (looser : Level.assignment.rank ≤ l.rank)
    (found : s.lookup x = (v, t)) (again : t.lookup x = (v, t)) (whole : t.ReadsWhole e)
    (value : t.result e = (.ok w, u)) (applied : base.apply [v, w] u.memory = (.ok b, u.memory))
    (assigned : Operator.assign.apply [v, b] u.memory = (.ok b', m)) :
    s.result (base.assigned x e) = (.ok b', { u with memory := m }) := by
  have symbol := TokenKind.language_symbol .assign
  have visible : Text.leadingBlank (base.applied x e) = [] := by
    rw [base.applied_eq]
    exact name.leadingBlank (by decide) _
  have start : (Cursor.start (base.assigned x e)).rest =
      x ++ ' ' :: (Operator.assign.symbol ++ ' ' :: base.applied x e) := by
    rw [base.assigned_eq]
    exact name.dropBlank (by decide) _
  have level : Operator.assign.level? = some .assignment := rfl
  obtain ⟨d, drest, target⟩ := term_of_joined_name (s := s) name level start
  rw [found] at target
  obtain ⟨g, taken, grest, -⟩ := Cursor.take?_spaced rfl symbol visible drest
  obtain ⟨f, rest, right⟩ := expression_applied (k := .assignment) name hl binary looser grest again
    whole value applied
  have read : expression actions .loosest s (.start (base.assigned x e)) =
      .ok b' { u with memory := m } f := by
    rw [Grammar.expression_joined target level rfl taken right (Nat.zero_le _)
      (.of_atEnd (fun _ _ => rest) _)]
    exact Grammar.applyAt_of_ok assigned d.offset f
  exact result_of_expression read fun _ _ => rest

/-- An expression that succeeds in one session succeeds in any other. -/
theorem exists_result (hs : s.Sound) (ht : t.Sound) (whole : s.ReadsWhole e)
    (accepted : ∃ v, (s.evaluate e).1 = .ok v) : ∃ w u, t.result e = (.ok w, u) := by
  generalize value : t.result e = r
  obtain ⟨err | w, u⟩ := r
  · have failed := (whole.error_iff hs ht err).mpr (congrArg Prod.fst value)
    obtain ⟨v, succeeded⟩ := accepted
    rw [evaluate_eq, valued, failed] at succeeded
    cases succeeded
  · exact ⟨w, u, rfl⟩

/-- For a variable and an expression that succeeds, a compound assignment does what the assignment
of its base operator does, and succeeds. -/
theorem evaluate_compound (compound : op.compoundBase? = some base)
    (name : TokenKind.name.Language x) (free : Environment.isConstant x = false)
    (reached : s.Reachable) (whole : s.ReadsWhole e) (accepted : ∃ v, (s.evaluate e).1 = .ok v) :
    s.evaluate (op.applied x e) = s.evaluate (base.assigned x e) ∧
      ∃ v, (s.evaluate (op.applied x e)).1 = .ok v := by
  obtain ⟨level, binary⟩ := Operator.level?_compound compound
  obtain ⟨⟨l, level', looser⟩, binary'⟩ := Operator.level?_base compound
  -- The first look at the variable may declare it, and from then on it is found in its cell.
  obtain ⟨c, bound, declared⟩ := lookup_variable reached.sound (Bool.eq_false_iff.mp free)
  obtain ⟨t, found⟩ : ∃ t, s.lookup x = (.cell c, t) := ⟨_, Prod.ext bound rfl⟩
  have sound := (reached.sound.lookup x).2
  rw [found] at declared sound
  have again : t.lookup x = (.cell c, t) := lookup_of_some declared
  have whole' : t.ReadsWhole e := whole.of_sound reached.sound sound
  obtain ⟨w, u, value⟩ := exists_result reached.sound sound whole accepted
  obtain ⟨v, m, computed, updated, assigned⟩ := Operator.apply_compound compound c w u.memory
  have left := result_applied name level binary found whole' value updated
  have right := result_assigned name level' binary' looser found again whole' value computed assigned
  rw [evaluate_eq, evaluate_eq, left, right]
  exact ⟨rfl, _, rfl⟩

/-- The expression writes to the variable that is assigned, and reads it. -/
theorem evaluate_compound_update :
    Operator.ushrAssign.compoundBase? = some .ushr ∧ TokenKind.name.Language "x".toList ∧
    Environment.isConstant "x".toList = false ∧ Session.initial.Reachable ∧
    Session.initial.ReadsWhole "x++".toList ∧
    (∃ v, (Session.initial.evaluate "x++".toList).1 = .ok v) ∧
    Session.initial.evaluate (Operator.ushrAssign.applied "x".toList "x++".toList) =
      Session.initial.evaluate (Operator.ushr.assigned "x".toList "x++".toList) ∧
    ∃ v, (Session.initial.evaluate
      (Operator.ushrAssign.applied "x".toList "x++".toList)).1 = .ok v := by
  have sound := Reachable.initial.sound
  have name : TokenKind.name.Language "x".toList := TokenKind.longest?_language (t := "x".toList) rfl
  have postIncrement : Grammar.Reads .atom (.unary .postIncrement _ (.name "x".toList))
      (.start "x++".toList) _ := .updated rfl rfl rfl rfl
  have read := postIncrement.loosen (p := .expression .loosest) (Nat.zero_le _)
  have whole : Session.initial.ReadsWhole "x++".toList := .of_reads sound read rfl
  have accepted : ∃ v, (Session.initial.evaluate "x++".toList).1 = .ok v := by
    have yields : (Tree.unary .postIncrement 1 (.name "x".toList)).Yields false :=
      (Tree.Yields.name _).unary rfl (fun _ => rfl) 1
    obtain ⟨b, t, value, -⟩ := yields _ sound
    rw [evaluate_eq, (result_of_reads sound read rfl).1.trans value]
    exact ⟨_, rfl⟩
  exact ⟨rfl, name, rfl, .initial, whole, accepted,
    evaluate_compound rfl name rfl .initial whole accepted⟩

end Session

end Calculator
