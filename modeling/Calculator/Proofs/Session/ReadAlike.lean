import Calculator.Proofs.Grammar.Lockstep
import Calculator.Session.Trace

/-!
# Two texts in one session

If cursors in two texts can be related so that the same tokens are found at related cursors, and
behind them related cursors again, then an evaluation does the same with both texts
(`ReadAlike.evaluate`). An action does not know where its operator stands, so that nothing is asked
of the actions.
-/

namespace Calculator

namespace Cursor

theorem describeNext_eq (c : Cursor) : c.describeNext =
    (c.rest.head?.map fun x => ['`', x, '`']).getD "end of input".toList := by
  unfold describeNext
  cases c.rest <;> rfl

theorem atEnd_eq (c : Cursor) : c.atEnd = c.rest.head?.isNone := by
  unfold atEnd
  cases c.rest <;> rfl

end Cursor

namespace Session

open Grammar

structure ReadAlike (cursor : Place → Cursor → Cursor → Prop) (error : Error → Error → Prop) :
    Prop where
  longest? : ∀ {p c d k}, cursor p c d → p.admits k → k.longest? c.rest = k.longest? d.rest
  pass : ∀ {p q c d k m}, cursor p c d → k.longest? c.rest = some m → p.Leads k m q →
    cursor q (c.pass k m) (d.pass k m)
  head? : ∀ {p c d}, cursor p c d → c.rest.head? = d.rest.head?
  ended : ∀ {c d}, cursor .beforeOperand c d → c.rest = [] → cursor .behindOperand c d
  /-- A fault is found at related cursors, with the same next character. -/
  error : ∀ {p c d} f, cursor p c d → error ⟨f, c.offset⟩ ⟨f, d.offset⟩

namespace ReadAlike

variable {cursor : Place → Cursor → Cursor → Prop} {error : Error → Error → Prop}
  (h : ReadAlike cursor error) {p : Place} {c d : Cursor}

include h

theorem describeNext (hc : cursor p c d) : c.describeNext = d.describeNext := by
  rw [Cursor.describeNext_eq, Cursor.describeNext_eq, h.head? hc]

theorem atEnd (hc : cursor p c d) : c.atEnd = d.atEnd := by
  rw [Cursor.atEnd_eq, Cursor.atEnd_eq, h.head? hc]

def lockstep : Lockstep Unit actions actions where
  grows _ _ := True
  grows_refl _ := trivial
  grows_trans _ _ := trivial
  state _ := Eq
  value _ := Eq
  cursor := cursor
  error := error
  lost _ := False
  value_mono _ same := same
  longest? hc _ _ _ admits := h.longest? hc admits
  closeParen hc := .inl (h.longest? hc rfl)
  pass hc _ := h.pass hc
  expectedOperand hc := h.describeNext hc ▸ h.error _ hc
  unclosedParenthesis hc := h.describeNext hc ▸ h.error _ hc
  invalidNumber _ hc := h.error _ hc
  number _ m := actions.number_alike m
  name m same := actions.name_alike m same
  isVariable same := actions.isVariable_alike same
  apply _ same hc alike := actions.apply_alike rfl same alike fun f _ => h.error f hc

theorem separates : h.lockstep.Separates where
  atEnd hc := h.atEnd hc
  separator {c d} hc := by
    have same := h.longest? hc (k := .separator) rfl
    cases hm : TokenKind.separator.longest? c.rest with
    | none =>
      exact .inl ⟨Cursor.take?_eq_none_iff.mpr hm, Cursor.take?_eq_none_iff.mpr (same ▸ hm)⟩
    | some m =>
      exact .inr ⟨m, _, _, Cursor.take?_eq_some_iff.mpr ⟨hm, rfl⟩,
        Cursor.take?_eq_some_iff.mpr ⟨same ▸ hm, rfl⟩, h.pass hc hm ⟨rfl, rfl⟩⟩
  ended hc last := h.ended hc (List.isEmpty_iff.mp last)
  unexpectedCharacter hc := h.describeNext hc ▸ h.error _ hc

theorem statements (s : Session) (hc : cursor .beforeOperand c d) :
    (Grammar.statements actions s c).state = (Grammar.statements actions s d).state ∧
      (∃ p, cursor p (Grammar.statements actions s c).cursor (Grammar.statements actions s d).cursor) ∧
      Alike (fun b b' => b.last = b'.last) error (Grammar.statements actions s c).outcome
        (Grammar.statements actions s d).outcome := by
  have ends := Lockstep.statements h.separates (w := ()) (s := s) rfl hc
  obtain ⟨_, -, state, place, alike⟩ := ends.alike fun _ _ => id
  exact ⟨state, place, alike⟩

theorem evaluate (s : Session) {source text : Text}
    (start : cursor .beforeOperand (.start source) (.start text)) :
    (s.evaluate text).2 = (s.evaluate source).2 ∧
      Alike Eq error (s.evaluate source).1 (s.evaluate text).1 := by
  obtain ⟨state, -, alike⟩ := h.statements s start
  refine ⟨state.symm, ?_⟩
  unfold Session.evaluate
  dsimp only
  rw [← state]
  revert alike
  generalize (Grammar.statements actions s (.start source)).outcome = r
  generalize (Grammar.statements actions s (.start text)).outcome = q
  intro alike
  rcases r with e | b <;> rcases q with f | b'
  · exact alike
  · exact alike
  · exact alike
  · exact congrArg (Session.read _) alike

end ReadAlike

end Session

end Calculator
