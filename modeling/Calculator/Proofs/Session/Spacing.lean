import Calculator.Proofs.Grammar.Alignment
import Calculator.Proofs.Session.ReadAlike
import Calculator.Proofs.Token.Position
import Calculator.Proofs.Tree.Printing
import Calculator.Session.Spacing

/-!
# Blanks between tokens

A text with other blanks between its tokens is evaluated as before (`Session.evaluate_respaced`).
The tokens that an evaluation passes lead from place to place (`Walk`), and along this walk the two
texts are aligned, so that they are read alike.
-/

namespace Calculator

open Grammar

/-- The cursor has come to the place by tokens that lead there. -/
inductive Walk (source : Text) : Place → Cursor → Prop
  | start : Walk source .beforeOperand (.start source)
  | pass {p q : Place} {c : Cursor} {k : TokenKind} {m : Text} : Walk source p c →
    k.longest? c.rest = some m → p.Leads k m q → Walk source q (c.pass k m)
  | ended {c : Cursor} : Walk source .beforeOperand c → c.rest = [] → Walk source .behindOperand c

namespace Walk

variable {source : Text} {p : Place} {c : Cursor}

theorem visible (h : Walk source p c) : Text.dropBlank c.rest = c.rest := by
  induction h with
  | start | pass => exact Text.dropBlank_dropBlank _
  | ended _ _ ih => exact ih

theorem readAlike (source : Text) :
    Session.ReadAlike (fun p c d => c = d ∧ Walk source p c) Eq where
  longest? h _ := h.1 ▸ rfl
  pass h hm leads := ⟨h.1 ▸ rfl, h.2.pass hm leads⟩
  head? h := h.1 ▸ rfl
  ended h last := ⟨h.1, h.2.ended last⟩
  error _ h := h.1 ▸ rfl

/-- The tokens with the blanks behind them, and the rest, make up the text. -/
theorem spelled (h : Walk source p c) :
    Text.dropBlank source = spell c.passed ++ c.rest ∧ ∀ l ∈ c.passed, Token.AllBlank l.blank := by
  induction h with
  | start => exact ⟨rfl, fun _ hl => nomatch hl⟩
  | @pass p q c k m _ hm _ ih =>
    obtain ⟨whole, blank⟩ := ih
    refine ⟨?_, List.forall_mem_cons.mpr ⟨Text.allBlank_leadingBlank _, blank⟩⟩
    show _ = spell c.passed ++ m ++ Text.leadingBlank (c.rest.drop m.length) ++
      Text.dropBlank (c.rest.drop m.length)
    rw [List.append_assoc, List.append_assoc, TokenKind.split_of_longest? hm, whole]
  | ended _ _ ih => exact ih

theorem stop (s : Session) (source : Text) : ∃ p, Walk source p (s.stop source) := by
  obtain ⟨-, ⟨p, -, walk⟩, -⟩ := (readAlike source).statements s ⟨rfl, .start⟩
  exact ⟨p, walk⟩

/-- The tokens with other blanks between them, and behind them what is aligned with the rest, are
aligned with the whole text. -/
theorem aligned (h : Walk source p c) {ls : List Lexeme} {t : Text}
    (respaced : List.Forall₂ Lexeme.Respaced c.passed ls) (rest : Aligned p c.rest t) :
    Aligned .beforeOperand (Text.dropBlank source) (spell ls ++ t) := by
  induction h generalizing ls t with
  | start =>
    cases respaced
    exact rest
  | @pass p q c k m walk hm leads ih =>
    cases respaced with
    | @cons _ l _ earlier same respaced =>
      have text : l.text = m := same.text
      have front := (TokenKind.split_of_longest? hm).symm
      have token : Aligned p c.rest (m ++ (l.blank ++ t)) := by
        rw [front] at hm ⊢
        exact .token leads hm (Text.allBlank_leadingBlank _) same.blank same.apart rest
      simpa [spell, text] using ih respaced token
  | ended _ last ih =>
    rw [last] at ih rest
    exact ih respaced (rest.ended _)

end Walk

theorem text_subset_spell {passed : List Lexeme} {l : Lexeme} (h : l ∈ passed) :
    l.text ⊆ spell passed := by
  induction passed with
  | nil => cases h
  | cons l' earlier ih =>
    intro c hc
    unfold spell
    rw [List.append_assoc, List.mem_append]
    rcases List.mem_cons.mp h with rfl | h
    · exact .inr (List.mem_append_left _ hc)
    · exact .inl (ih h hc)

namespace Session

/-- A token is made of characters of the text. -/
theorem text_subset (s : Session) (source : Text) {l : Lexeme} (h : l ∈ s.tokens source) :
    l.text ⊆ source := by
  obtain ⟨p, walk⟩ := Walk.stop s source
  intro c hc
  have whole : c ∈ Text.dropBlank source := by
    rw [walk.spelled.1]
    exact List.mem_append_left _ (text_subset_spell h hc)
  exact (List.dropWhile_suffix Text.isBlank).mem whole

theorem respaced_self (s : Session) (source : Text) : s.Respaced source source := by
  obtain ⟨p, walk⟩ := Walk.stop s source
  obtain ⟨whole, blank⟩ := walk.spelled
  refine ⟨s.tokens source, List.forall₂_same.mpr fun l hl => ⟨rfl, rfl, blank l hl, id⟩, ?_⟩
  have rest : s.tokens source = (s.stop source).passed := rfl
  rw [rest, ← whole, Text.trim, Text.trim, Text.dropBlank_dropBlank]

theorem Respaced.aligned {s : Session} {source text : Text} (h : s.Respaced source text) :
    Aligned .beforeOperand (Text.dropBlank source) (Text.dropBlank text) := by
  obtain ⟨ls, respaced, same⟩ := h
  obtain ⟨p, walk⟩ := Walk.stop s source
  have whole := walk.aligned respaced (.same rfl walk.visible walk.visible)
  refine whole.trimmed ?_ (Text.dropBlank_dropBlank text)
  rw [Text.trim, Text.trim, whole.visible.2] at same
  exact same.symm

/-- A text that is read as one expression and comes to a value is read to its end. -/
theorem stop_of_reads {s s' : Session} (sound : s.Sound) {u : Tree} {text : Text} {d : Cursor}
    {b : Binding} (read : Reads (.expression .loosest) u (.start text) d) (done : d.rest = [])
    (means : u.interpret s = (.ok b, s')) : s.stop text = d := by
  have mirrors := Tree.mirrors_expression sound .loosest (.start text)
  have closes : d.Closes Level.loosest.rank := .of_none (by rw [done, TokenKind.longest?_nil]) _
  rw [read.expression closes] at mirrors
  unfold stop Grammar.statements
  generalize Grammar.expression actions .loosest s (.start text) = r at mirrors
  cases mirrors with
  | ok =>
    have atEnd : d.atEnd := by rw [Cursor.atEnd, done]; rfl
    rw [Result.ok_andThen, moreStatements_eq, if_pos atEnd]
    rfl
  | refused _ same =>
    cases (same u d rfl).symm.trans means

/-! ### The two runs -/

/-- Cursors behind the same tokens. -/
structure Beside (source text : Text) (p : Place) (c d : Cursor) : Prop where
  fronts : ∃ front front', c.Behind front source ∧ d.Behind front' text ∧
    Text.ink front' = Text.ink front
  aligned : Aligned p c.rest d.rest

theorem Beside.pass {source text m : Text} {p q : Place} {c d : Cursor} {k : TokenKind}
    (h : Beside source text p c d) (hm : k.longest? c.rest = some m) (leads : p.Leads k m q) :
    Beside source text q (c.pass k m) (d.pass k m) := by
  obtain ⟨front, front', behind, behind', same⟩ := h.fronts
  have hm' := h.aligned.longest? leads.admits ▸ hm
  refine ⟨⟨_, _, behind.pass hm, behind'.pass hm', ?_⟩, h.aligned.pass hm leads⟩
  simp only [Text.ink_append, Text.ink_of_allBlank (Text.allBlank_leadingBlank _), same]

theorem Beside.moved {source text : Text} {p : Place} {c d : Cursor} (h : Beside source text p c d)
    (f : Fault) : Error.Moved source text ⟨f, c.offset⟩ ⟨f, d.offset⟩ := by
  obtain ⟨front, front', behind, behind', same⟩ := h.fronts
  refine ⟨rfl, ?_, (Text.ink front).length, ?_, ?_⟩
  · rw [behind.whole, behind'.whole, Text.ink_append, Text.ink_append, same, h.aligned.ink_eq]
  · exact ⟨front, c.rest, behind.whole, behind.offset, rfl,
      Text.visible_of_dropBlank behind.visible⟩
  · exact ⟨front', d.rest, behind'.whole, behind'.offset, congrArg List.length same,
      Text.visible_of_dropBlank behind'.visible⟩

theorem readAlike_beside (source text : Text) :
    ReadAlike (Beside source text) (Error.Moved source text) where
  longest? h admits := h.aligned.longest? admits
  pass h hm leads := h.pass hm leads
  head? h := h.aligned.head?_eq
  ended {c d} h last := by
    have aligned := h.aligned
    rw [last] at aligned
    exact ⟨h.fronts, last ▸ aligned.ended _⟩
  error f h := h.moved f

/-- Other blanks between the tokens and at the ends of a text change nothing: the value is the same,
or the same fault is found at the same character, and the session is left the same. -/
theorem evaluate_respaced {s : Session} {source text : Text} (h : s.Respaced source text) :
    (s.evaluate text).2 = (s.evaluate source).2 ∧
      Alike Eq (Error.Moved source text) (s.evaluate source).1 (s.evaluate text).1 := by
  have start : Beside source text .beforeOperand (.start source) (.start text) := {
    fronts := ⟨_, _, .start source, .start text, by
      rw [Text.ink_of_allBlank (Text.allBlank_leadingBlank _),
        Text.ink_of_allBlank (Text.allBlank_leadingBlank _)]⟩
    aligned := h.aligned }
  exact (readAlike_beside source text).evaluate s start

/-- The two tokens touch in the first text only. -/
theorem evaluate_respaced_apart :
    let source := "-x".toList
    let text := " -\u3000x\n".toList
    Session.initial.Respaced source text ∧
      (Session.initial.evaluate text).2 = (Session.initial.evaluate source).2 ∧
      Alike Eq (Error.Moved source text) (Session.initial.evaluate source).1
        (Session.initial.evaluate text).1 := by
  intro source text
  have symbol : (Cursor.start source).take? .beforeOperand = some (Operator.negate.symbol, _) :=
    Cursor.take?_eq_some_iff.mpr ⟨by decide, rfl⟩
  have name : ((Cursor.start source).pass .beforeOperand "-".toList).take? .name =
      some (['x'], _) := Cursor.take?_eq_some_iff.mpr ⟨by decide, rfl⟩
  have read : Reads .term (.unary .negate 0 (.name ['x'])) (.start source) _ :=
    .before rfl symbol (.atom (.name name))
  have stop := stop_of_reads Reachable.initial.sound (read.loosen (Nat.zero_le _)) rfl rfl
  have respaced : Session.initial.Respaced source text := by
    refine ⟨[⟨.name, ['x'], []⟩, ⟨.beforeOperand, ['-'], ['\u3000']⟩], ?_, ?_⟩
    · show List.Forall₂ _ (Session.initial.stop source).passed _
      rw [stop]
      exact .cons ⟨rfl, rfl, List.all_eq_true.mp rfl, by decide⟩
        (.cons ⟨rfl, rfl, List.all_eq_true.mp rfl, by decide⟩ .nil)
    · rw [stop]
      decide
  exact ⟨respaced, evaluate_respaced respaced⟩

end Session

end Calculator
