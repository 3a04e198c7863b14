import Calculator.Proofs.Grammar.Levels
import Calculator.Proofs.Session.ReadAlike
import Calculator.Session.Spacing

/-!
# Levels of a session

Of two levels the looser one reads what the tighter one reads, and the same if no operator between the
two follows (`Session.expression_levels`). The symbols that are passed on the way are the longest where
they stand (`Passage.symbol`).
-/

namespace Calculator

open Grammar

/-- Tokens that have been passed, latest first, lead from `c` to a cursor. -/
inductive Passage (c : Cursor) : List Lexeme → Cursor → Prop
  | here : Passage c [] c
  | pass {ls : List Lexeme} {d : Cursor} {p q : Place} {k : TokenKind} {m : Text} : Passage c ls d →
    k.longest? d.rest = some m → p.Leads k m q →
    Passage c (⟨k, m, Text.leadingBlank (d.rest.drop m.length)⟩ :: ls) (d.pass k m)

namespace Passage

variable {c d : Cursor} {ls later earlier : List Lexeme} {l : Lexeme}

theorem passed (h : Passage c ls d) : d.passed = ls ++ c.passed := by
  induction h with
  | here => rfl
  | pass _ _ _ ih => exact congrArg (_ :: ·) ih

theorem spelled (h : Passage c ls d) : c.rest = spell ls ++ d.rest := by
  induction h with
  | here => rfl
  | @pass ls d p q k m _ hm _ ih =>
    rw [ih]
    conv => lhs; rw [Cursor.rest_of_longest? hm, ← List.append_assoc, ← List.append_assoc]
    rfl

theorem split (h : Passage c (later ++ earlier) d) : ∃ e, Passage c earlier e ∧ Passage e later d := by
  induction later generalizing d with
  | nil => exact ⟨d, h, .here⟩
  | cons l later ih =>
    cases h with
    | pass path hm leads =>
      obtain ⟨e, first, second⟩ := ih path
      exact ⟨e, first, second.pass hm leads⟩

/-- Where a token has been passed. -/
theorem exists_before (h : Passage c (later ++ l :: earlier) d) :
    ∃ (e : Cursor) (p q : Place), l.kind.longest? e.rest = some l.text ∧ Place.Leads p l.kind l.text q ∧
      e.rest = l.text ++ l.blank ++ spell later ++ d.rest := by
  obtain ⟨_, first, second⟩ := h.split
  cases first with
  | @pass _ e p q k m _ hm leads =>
    refine ⟨e, p, q, hm, leads, ?_⟩
    conv => lhs; rw [Cursor.rest_of_longest? hm, second.spelled, ← List.append_assoc]

theorem symbol (h : Passage c (later ++ l :: earlier) d) (kind : l.kind = .operator) :
    ∃ (op : Operator) (j : Level), op.level? = some j ∧ l.text = op.symbol ∧
      TokenKind.operator.IsLongest (l.text ++ l.blank ++ spell later ++ d.rest) op.symbol := by
  obtain ⟨e, p, q, longest, leads, front⟩ := h.exists_before
  rw [kind] at longest leads
  obtain ⟨op, found, -⟩ := Option.map_eq_some_iff.mp leads.after
  obtain ⟨leveled, same⟩ := Operator.symbol_of_find? found
  obtain ⟨j, hj⟩ := Option.isSome_iff_exists.mp (List.mem_filter.mp leveled).2
  rw [← front]
  exact ⟨op, j, hj, same.symm, same ▸ TokenKind.isLongest_of_longest? longest⟩

theorem readAlike (c : Cursor) :
    Session.ReadAlike (fun _ d e => d = e ∧ ∃ ls, Passage c ls d) Eq where
  longest? h _ := h.1 ▸ rfl
  pass h hm leads := ⟨h.1 ▸ rfl, h.2.imp' _ fun _ path => path.pass hm leads⟩
  head? h := h.1 ▸ rfl
  ended h _ := h
  error _ h := h.1 ▸ rfl

theorem run (s : Session) (rule : Rule) (c : Cursor) :
    ∃ ls, Passage c ls (rule.run Session.actions s c).cursor := by
  have ends := Lockstep.run (readAlike c).separates (w := ()) (s := s) rule rfl ⟨rfl, [], .here⟩
  obtain ⟨_, -, -, ⟨_, -, path⟩, -⟩ := ends.alike fun _ _ => id
  exact path

end Passage

namespace Session

/-- A looser level `k` fails as a tighter level `l` does. Where `l` succeeds, no operator of `l` or a
tighter level follows; `k` reads at least as far, and the same unless an operator of a level between
the two follows. The symbols that are passed on the way belong to operators of some level, and the
text has no longer symbol where they stand. -/
theorem expression_levels (s : Session) (c : Cursor) {k l : Level} (looser : k.rank ≤ l.rank) :
    let tight := expression actions l s c
    let loose := expression actions k s c
    (∀ e, tight.outcome = .error e → loose = tight) ∧
    (∀ b, tight.outcome = .ok b →
      (∀ (op : Operator) (j : Level), TokenKind.operator.IsLongest tight.cursor.rest op.symbol →
        op.level? = some j → j.rank < l.rank) ∧
      (tight.cursor.offset ≤ loose.cursor.offset ∧ loose.cursor.rest <:+ tight.cursor.rest) ∧
      ((∀ (op : Operator) (j : Level), TokenKind.operator.IsLongest tight.cursor.rest op.symbol →
        op.level? = some j → ¬ (k.rank ≤ j.rank ∧ j.rank < l.rank)) → loose = tight)) ∧
    ∃ ls, loose.cursor.passed = ls ++ c.passed ∧ c.rest = spell ls ++ loose.cursor.rest ∧
      ∀ later token earlier, ls = later ++ token :: earlier → token.kind = .operator →
        ∃ (op : Operator) (j : Level), op.level? = some j ∧ token.text = op.symbol ∧
          TokenKind.operator.IsLongest
            (token.text ++ token.blank ++ spell later ++ loose.cursor.rest) op.symbol := by
  intro tight loose
  refine ⟨fun e failed => ?_, fun b read => ⟨?_, ?_, fun between => ?_⟩, ?_⟩
  · refine expression_of_between looser fun v ended => ?_
    cases failed.symm.trans ended
  · exact Cursor.refuses_iff.mp (refuses_expression actions l s c b read)
  · have further : tight.cursor.Reaches loose.cursor := reaches_looser actions looser s c
    exact ⟨further.le, further.suffix⟩
  · refine expression_of_between looser fun _ _ j le lt => Cursor.atLevel?_eq_none fun op hop hm => ?_
    exact between op j (TokenKind.isLongest_of_longest? hm) hop ⟨le, lt⟩
  · obtain ⟨ls, path⟩ := Passage.run s (.expression k) c
    refine ⟨ls, path.passed, path.spelled, fun later token earlier split kind => ?_⟩
    subst split
    exact path.symbol kind

/-- No factorial is read in front of `!=`, nor does a level that is tighter than its own read on. -/
theorem expression_levels_unequal :
    let c := Cursor.start "x!=120".toList
    let tight := expression actions .factorial .initial c
    Level.relational.rank ≤ Level.factorial.rank ∧ tight.outcome.isOk ∧
      tight.cursor.rest = "!=120".toList ∧
      expression actions .relational .initial c = tight := by
  intro c tight
  have closes {n : Nat} (lt : Level.equality.rank < n) : (c.pass .name "x".toList).Closes n :=
    .of_operator (rfl : Operator.notEquals.level? = some .equality) rfl lt
  have read : tight = .ok _ _ (c.pass .name "x".toList) :=
    expression_of_term (term_of_name rfl (closes (by decide : 7 < 13))) (.of_ok (closes (by decide)))
  have levels := (expression_levels .initial c (by decide : Level.relational.rank ≤ Level.factorial.rank)).2.1
  obtain ⟨-, -, same⟩ := levels _ (congrArg Result.outcome read)
  refine ⟨by decide, by rw [read]; rfl, by rw [read]; rfl, same fun op j longest hj between => ?_⟩
  have refused : tight.cursor.Refuses Level.relational.rank := by
    rw [read]
    exact fun l le => (closes (by decide)).atLevel? le
  have := Cursor.refuses_iff.mp refused op j longest hj
  omega

end Session

end Calculator
