import Calculator.Proofs.Grammar.Levels
import Calculator.Proofs.Session.Control
import Calculator.Proofs.Session.Sequence
import Calculator.Proofs.Token.Blank

/-!
# An expression in parentheses

A text that is one expression from end to end (`Session.ReadsWhole`) does the same in parentheses
as by itself (`Grammar.term_enclosed`): the run on the text alone and the run inside the
parentheses stay in lockstep up to the `)`, which is in no other token. Whether a text is such an
expression does not depend on the session (`Session.ReadsWhole.of_sound`).
-/

namespace Calculator

namespace Session

/-- The text is one expression up to its end, unless a write is refused in it. -/
def ReadsWhole (s : Session) (source : Text) : Prop :=
  let r := Grammar.expression actions .loosest s (.start source)
  match r.outcome with
  | .ok _ => r.cursor.rest = []
  | .error e => e.fault.kind = .immutableBinding

namespace ReadsWhole

variable {s t : Session} {source : Text}

theorem atEnd (h : s.ReadsWhole source) (v : Binding)
    (ended : (Grammar.expression actions .loosest s (.start source)).outcome = .ok v) :
    (Grammar.expression actions .loosest s (.start source)).cursor.rest = [] := by
  unfold ReadsWhole at h
  simpa only [ended] using h

theorem refuses (h : s.ReadsWhole source) (e : Error)
    (ended : (Grammar.expression actions .loosest s (.start source)).outcome = .error e) :
    e.fault.kind = .immutableBinding := by
  unfold ReadsWhole at h
  simpa only [ended] using h

theorem of_sound (h : s.ReadsWhole source) (hs : s.Sound) (ht : t.Sound) : t.ReadsWhole source := by
  obtain ⟨cursor, outcome⟩ := run_control ht hs (.expression .loosest) (.start source)
  unfold ReadsWhole
  dsimp only
  split
  case h_1 v ended =>
    show (Grammar.Rule.run _ _ _ (.expression .loosest)).cursor.rest = []
    rw [cursor]
    cases ended' : (Grammar.expression actions .loosest s (.start source)).outcome with
    | ok u => exact h.atEnd u ended'
    | error e => cases ((eq_error_iff_of_map outcome e).mpr ended').symm.trans ended
  case h_2 e ended => exact h.refuses e ((eq_error_iff_of_map outcome e).mp ended)

/-- What the grammar reads as one expression from end to end. -/
theorem of_reads (sound : s.Sound) {tree : Tree} {c : Cursor}
    (h : Grammar.Reads (.expression .loosest) tree (.start source) c) (rest : c.rest = []) :
    s.ReadsWhole source := by
  have closes : c.Closes Level.loosest.rank := .of_none (by rw [rest, TokenKind.longest?_nil]) _
  have mirrors := Tree.mirrors_expression sound .loosest (.start source)
  rw [h.expression closes] at mirrors
  unfold ReadsWhole
  generalize Grammar.expression actions .loosest s (.start source) = r at mirrors ⊢
  cases mirrors with
  | ok _ _ => exact rest
  | refused refuses _ =>
    obtain ⟨op, n, -, rfl⟩ := refuses
    exact rfl

end ReadsWhole

theorem ReadsWhole.result {s : Session} {source : Text} (h : s.ReadsWhole source) :
    s.result source = ((Grammar.expression actions .loosest s (.start source)).outcome,
      (Grammar.expression actions .loosest s (.start source)).state) :=
  result_of_expression rfl h.atEnd

/-- A text that is one expression fails in all sessions or in none. -/
theorem ReadsWhole.error_iff {s t : Session} {source : Text} (h : s.ReadsWhole source) (hs : s.Sound)
    (ht : t.Sound) (e : Error) : (s.result source).1 = .error e ↔ (t.result source).1 = .error e := by
  rw [h.result, (h.of_sound hs ht).result]
  exact eq_error_iff_of_map (run_control hs ht (.expression .loosest) (.start source)).2 e

end Session

namespace Grammar

open Session (actions)

/-- A run on a text alone and the run on it in parentheses, as long as the first one finds no
mistake in the text. -/
def enclosed (k n : Nat) (tail : Text) : Lockstep Unit actions actions where
  grows _ _ := True
  grows_refl _ := trivial
  grows_trans _ _ := trivial
  state _ s t := s = t
  value _ := Eq
  cursor _ := Cursor.Within k n (')' :: tail)
  error e f := e.fault.kind = .immutableBinding → f = e.delayed k
  lost e := e.fault.kind ≠ .immutableBinding
  value_mono _ h := h
  longest? within kind hk other _ := by
    rw [within.rest, TokenKind.longest?_append_of_not_mem fun _ h => h.closeParen_not_mem hk other]
  closeParen {c d} within := by
    rw [within.rest]
    cases c.rest with
    | nil => exact .inr ⟨rfl, nofun⟩
    | cons x r => exact .inl rfl
  pass within _ hm _ := within.pass rfl hm
  expectedOperand _ := nofun
  unclosedParenthesis _ := nofun
  invalidNumber _ _ := nofun
  number _ m := actions.number_alike m
  name m same := actions.name_alike m same
  isVariable same := actions.isVariable_alike same
  apply _ same within alike := actions.apply_alike rfl same alike fun f _ _ => by
    rw [within.offset]
    rfl

variable {s : Session} {c : Cursor} {a tail : Text}

/-- The two runs behind the `(` and up to the `)`. -/
theorem expression_enclosed (whole : s.ReadsWhole a) (k : Nat)
    (within : Cursor.Within k (Text.extent a) (')' :: tail) (.start a) c) :
    match s.result a with
    | (.ok v, t) => ∃ d, expression actions .loosest s c = .ok v t d ∧ d.rest = ')' :: tail ∧
        d.offset = Text.extent a + k
    | (.error e, t) => ∃ d, expression actions .loosest s c = ⟨.error (e.delayed k), t, d⟩ := by
  have ends := (enclosed k _ tail).expression (w := ()) .loosest (Eq.refl s) within
  have atEnd := whole.atEnd
  have refuses := whole.refuses
  rw [whole.result]
  generalize expression actions .loosest s (.start a) = r at ends atEnd refuses ⊢
  generalize expression actions .loosest s c = q at ends ⊢
  obtain ⟨_, -, same, ⟨_, within⟩, alike⟩ := ends.alike fun e ended lost => lost (refuses e ended)
  obtain ⟨e | v, t, d⟩ := r <;> obtain ⟨e' | v', t', d'⟩ := q
  case error.error =>
    obtain rfl : t = t' := same
    obtain rfl : e' = e.delayed k := alike (refuses e rfl)
    exact ⟨d', rfl⟩
  case error.ok => exact alike.elim
  case ok.error => exact alike.elim
  case ok.ok =>
    obtain rfl : t = t' := same
    obtain rfl : v = v' := alike
    have rest : d.rest = [] := atEnd v rfl
    have total := within.extent
    rw [rest, Text.extent_nil, Nat.add_zero] at total
    exact ⟨d', rfl, by rw [within.rest, rest, List.nil_append], by rw [within.offset, total]⟩

/-- Behind the `)` the run goes on as it would behind the text alone. -/
theorem term_enclosed (whole : s.ReadsWhole a) (hc : c.rest = '(' :: (a ++ ')' :: tail)) :
    match s.result a with
    | (.ok v, t) => ∃ d, term actions s c = .ok v t d ∧ d.rest = Text.dropBlank tail ∧
        d.offset = c.offset + Text.extent a + 2 + Text.extent (Text.leadingBlank tail)
    | (.error e, t) => ∃ d, term actions s c = ⟨.error (e.delayed (c.offset + 1)), t, d⟩ := by
  have opened : c.take? .openParen = some (['('], c.pass .openParen ['(']) :=
    Cursor.take?_eq_some_iff.mpr ⟨by rw [hc]; rfl, rfl⟩
  have behind : c.rest.drop ['('].length = a ++ ')' :: tail := by rw [hc]; rfl
  have within : Cursor.Within (c.offset + 1) (Text.extent a) (')' :: tail) (.start a)
      (c.pass .openParen ['(']) :=
    .enter rfl (by rw [← behind]; rfl) (by rw [← behind]; rfl)
  have inside := expression_enclosed whole _ within
  rw [term_of_openParen opened]
  generalize s.result a = r at inside ⊢
  obtain ⟨e | v, t⟩ := r
  · obtain ⟨d, read⟩ := inside
    exact ⟨d, by rw [read]; rfl⟩
  · obtain ⟨d, read, rest, offset⟩ := inside
    have closed : d.take? .closeParen = some ([')'], d.pass .closeParen [')']) :=
      Cursor.take?_eq_some_iff.mpr ⟨by rw [rest]; rfl, rfl⟩
    have after : d.rest.drop [')'].length = tail := by rw [rest]; rfl
    refine ⟨d.pass .closeParen [')'], by rw [read, Result.ok_andThen, closed], ?_, ?_⟩
    · rw [← after]
      rfl
    · have one : Text.extent [')'] = 1 := by decide
      show d.offset + Text.extent [')'] + Text.extent (Text.leadingBlank (d.rest.drop _)) = _
      rw [after, offset, one]
      omega

/-- An operator between a term and an expression in parentheses that ends the text. -/
theorem expression_joined_enclosed {k l : Level} {op : Operator} {v : Binding} {t : Session}
    {d : Cursor} (left : term actions s c = .ok v t d) (hl : op.level? = some l)
    (binary : op.arity = 2) (looser : k.rank ≤ l.rank) (whole : t.ReadsWhole a)
    (hd : d.rest = op.symbol ++ ' ' :: '(' :: (a ++ [')'])) :
    match t.result a with
    | (.ok w, u) => ∃ f, f.rest = [] ∧
        expression actions k s c = applyAt actions op [v, w] d.offset u f
    | (.error e, u) => ∃ f, expression actions k s c =
        ⟨.error (e.delayed (d.offset + Text.extent op.symbol + 2)), u, f⟩ := by
  obtain ⟨e, taken, rest, offset⟩ :=
    Cursor.take?_spaced rfl (TokenKind.language_symbol op) rfl hd
  have inside := term_enclosed whole rest
  have joined {r : Result Session Binding} (read : term actions t e = r) (settled : r.Settled 0) :
      expression actions k s c = r.andThen fun u t f => applyAt actions op [v, u] d.offset t f :=
    expression_joined left hl binary taken
      (rightOperand_of_term read (settled.mono (Nat.zero_le _))) looser
      (settled.mono (Nat.zero_le _))
  generalize t.result a = r at inside ⊢
  obtain ⟨err | w, u⟩ := r
  · obtain ⟨f, read⟩ := inside
    refine ⟨f, ?_⟩
    rw [joined read (.of_error rfl 0), offset]
    rfl
  · obtain ⟨f, read, frest, -⟩ := inside
    exact ⟨f, frest, joined read (.of_atEnd (fun _ _ => frest) 0)⟩

end Grammar

end Calculator
