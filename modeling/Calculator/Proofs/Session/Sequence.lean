import Calculator.Proofs.Grammar.Lockstep
import Calculator.Proofs.Token.Separator
import Calculator.Proofs.Token.Within
import Calculator.Proofs.Tree.Interpretation

/-!
# One text behind another

The text `a ++ ';' :: b` is evaluated as `a` and then `b` (`Session.evaluate_sequence`). A run on
`a` alone and the run on the whole text stay in lockstep up to the end of `a`, since no token reaches
past the `;`; from there on the run on the whole text stays in lockstep with a run on `b` alone.
-/

namespace Calculator

/-- Nothing, or a text that no token before it reaches into. -/
def SetApart (tail : Text) : Prop :=
  tail = [] ∨ ∃ b, tail = ';' :: b

namespace SetApart

variable {tail : Text}

theorem leadingBlank (h : SetApart tail) : Text.leadingBlank tail = [] := by
  rcases h with rfl | ⟨b, rfl⟩ <;> rfl

theorem longest? (h : SetApart tail) {k : TokenKind} (hk : k.inExpression) {t u : Text}
    (whole : u = t ++ tail) : k.longest? t = k.longest? u := by
  subst whole
  rcases h with rfl | ⟨b, rfl⟩
  · rw [List.append_nil]
  · exact (TokenKind.longest?_append_cons hk (by decide) _ b).symm

end SetApart

/-- What stands where a text ends, if `tail` follows. -/
def describeEnd (tail : Text) : Text :=
  Cursor.describeNext ⟨0, tail, []⟩

/-- What is found at a place where `found` is, if `next` is found where the text ends. -/
def foundOr (next found : Text) : Text :=
  if found = describeEnd [] then next else found

/-- The same fault of a text behind which `next` is found. -/
def Fault.before (next : Text) : Fault → Fault
  | expectedOperand found => expectedOperand (foundOr next found)
  | unclosedParenthesis found => unclosedParenthesis (foundOr next found)
  | unexpectedCharacter found => unexpectedCharacter (foundOr next found)
  | fault => fault

theorem Fault.before_end (f : Fault) : f.before (describeEnd []) = f := by
  have same (found : Text) : foundOr (describeEnd []) found = found := by
    unfold foundOr
    split
    case isTrue h => exact h.symm
    case isFalse => rfl
  cases f <;> simp [before, same]

namespace Cursor

variable {k n : Nat} {tail : Text} {c d : Cursor}

theorem Within.describeNext (within : Within k n tail c d) :
    d.describeNext = foundOr (describeEnd tail) c.describeNext := by
  unfold Cursor.describeNext
  rw [within.rest]
  cases c.rest with
  | nil => rfl
  | cons x rest =>
    have other : Cursor.describeNext ⟨0, x :: rest, []⟩ ≠ describeEnd [] :=
      fun h => by cases congrArg List.length h
    exact (if_neg other).symm

end Cursor

/-- The error of a text with `k` bytes in front and `tail` behind. -/
def Error.within (k : Nat) (tail : Text) (e : Error) : Error :=
  ⟨e.fault.before (describeEnd tail), e.offset + k⟩

/-- The error of a text that stands `k` bytes further back. -/
def Error.delayed (k : Nat) (e : Error) : Error :=
  ⟨e.fault, e.offset + k⟩

namespace Grammar

open Session (actions)

/-! ### The two runs -/

/-- A run on a text alone and the run on it inside another, in one session. -/
def inside (k n : Nat) {tail : Text} (h : SetApart tail) : Lockstep Unit actions actions where
  grows _ _ := True
  grows_refl _ := trivial
  grows_trans _ _ := trivial
  state _ s t := s = t
  value _ := Eq
  cursor _ := Cursor.Within k n tail
  error e f := f = e.within k tail
  lost _ := False
  value_mono _ h := h
  longest? within kind hk _ _ := h.longest? hk within.rest
  closeParen within := .inl (h.longest? rfl within.rest)
  pass within _ hm _ := within.pass h.leadingBlank hm
  expectedOperand within := by
    rw [within.describeNext, within.offset]
    rfl
  unclosedParenthesis within := by
    rw [within.describeNext, within.offset]
    rfl
  invalidNumber m within := by
    rw [within.offset]
    rfl
  number _ m := actions.number_alike m
  name m same := actions.name_alike m same
  isVariable same := actions.isVariable_alike same
  apply hl same within alike := actions.apply_alike rfl same alike fun f failed => by
    -- The only fault is a refused write, which does not tell what is found behind it.
    obtain ⟨-, rfl⟩ := Operator.fault_of_apply hl failed
    rw [within.offset]
    rfl

theorem inside_separates (k n : Nat) : (inside k n (.inl rfl : SetApart [])).Separates where
  atEnd within := by rw [Cursor.atEnd, Cursor.atEnd, within.rest, List.append_nil]
  separator {c d} within := by
    have same : d.rest = c.rest := by rw [within.rest, List.append_nil]
    cases hm : TokenKind.separator.longest? c.rest with
    | none =>
      exact .inl ⟨Cursor.take?_eq_none_iff.mpr hm, Cursor.take?_eq_none_iff.mpr (same ▸ hm)⟩
    | some m =>
      exact .inr ⟨m, _, _, Cursor.take?_eq_some_iff.mpr ⟨hm, rfl⟩,
        Cursor.take?_eq_some_iff.mpr ⟨same ▸ hm, rfl⟩, within.pass rfl hm⟩
  ended within _ := within
  unexpectedCharacter within := by
    rw [within.describeNext, within.offset]
    rfl

/-- How the run on `a ++ ';' :: b` goes on from where the run on `a` has ended: not at all behind an
error, and with the statements of `b` otherwise. -/
inductive Resumes (a b : Text) :
    Result Session (Statements Binding) → Result Session (Statements Binding) → Prop
  | stopped (e : Error) (s : Session) (c d : Cursor) :
    Resumes a b ⟨.error e, s, c⟩ ⟨.error (e.within 0 (';' :: b)), s, d⟩
  | resumed {done done' : Statements Binding} {s : Session} {c d : Cursor} :
    d.offset = Text.extent a + 1 + Text.extent (Text.leadingBlank b) → d.rest = Text.dropBlank b →
    Resumes a b (.ok done s c) ((expression actions .loosest s d).andThen
      fun v s e => moreStatements actions (done'.add v) s e)

variable {a b u : Text} {x : Char} {s : Session} {c d : Cursor}

/-- The end of `a`, up to its separators: what stands behind the `;` is `b`. -/
theorem resumes_at_end (first : Text.dropBlank b = x :: u) (hx : x ≠ ';')
    (within : Cursor.Within 0 (Text.extent a) (';' :: b) c d)
    (inside : ∀ y ∈ c.rest, Token.inSeparator y) (starts : c.rest = [] ∨ ∃ r, c.rest = ';' :: r)
    (done done' : Statements Binding) (e : Cursor) :
    Resumes a b (.ok done s e) (moreStatements actions done' s d) := by
  have token := TokenKind.longest?_separator_concat inside starts first hx
  rw [← within.rest] at token
  have taken := Cursor.take?_eq_some_iff.mpr ⟨token, rfl⟩
  have behind : d.rest.drop (c.rest ++ [';']).length = b := by
    rw [within.rest, show c.rest ++ ';' :: b = c.rest ++ [';'] ++ b by simp, List.drop_left]
  have rest : (d.pass .separator (c.rest ++ [';'])).rest = x :: u := by
    show Text.dropBlank (d.rest.drop _) = _
    rw [behind, first]
  have offset : (d.pass .separator (c.rest ++ [';'])).offset =
      Text.extent a + 1 + Text.extent (Text.leadingBlank b) := by
    show d.offset + Text.extent (c.rest ++ [';']) + Text.extent (Text.leadingBlank (d.rest.drop _)) = _
    have total := within.extent
    have one : Text.extent [';'] = 1 := by decide
    rw [behind, within.offset, Text.extent_append, one]
    omega
  rw [moreStatements_eq, if_neg (by simp [Cursor.atEnd, within.rest]), taken]
  simp only
  rw [if_neg (by simp [Cursor.atEnd, rest])]
  exact .resumed offset (rest.trans first.symm)

theorem resumes_andThen {r q : Result Session Binding}
    {f g : Binding → Session → Cursor → Result Session (Statements Binding)} {w : Unit}
    (h : (inside 0 (Text.extent a) (.inr ⟨b, rfl⟩ : SetApart (';' :: b))).Ends (fun _ => Eq) w r q)
    (next : ∀ v s c d, r.cursor = c → Cursor.Within 0 (Text.extent a) (';' :: b) c d →
      Resumes a b (f v s c) (g v s d)) : Resumes a b (r.andThen f) (q.andThen g) := by
  obtain ⟨outcome, s, c⟩ := r
  obtain ⟨outcome', s', d⟩ := q
  obtain ⟨_, -, same, ⟨_, within⟩, alike⟩ := h.alike fun _ _ => id
  obtain rfl : s = s' := same
  cases outcome with
  | ok v =>
    cases outcome' with
    | ok v' =>
      obtain rfl : v = v' := alike
      exact next v s c d rfl within
    | error e => exact alike.elim
  | error e =>
    cases outcome' with
    | ok v => exact alike.elim
    | error e' =>
      obtain rfl : e' = e.within 0 (';' :: b) := alike
      exact .stopped e s c d

theorem resumes_moreStatements (first : Text.dropBlank b = x :: u) (hx : x ≠ ';')
    (within : Cursor.Within 0 (Text.extent a) (';' :: b) c d) (done done' : Statements Binding) :
    Resumes a b (moreStatements actions done s c) (moreStatements actions done' s d) := by
  induction c using Cursor.induction generalizing s d done done' with
  | step c ih =>
    have apart : SetApart (';' :: b) := .inr ⟨b, rfl⟩
    rw [moreStatements_eq actions done]
    split
    case isTrue atEnd =>
      have rest : c.rest = [] := List.isEmpty_iff.mp atEnd
      exact resumes_at_end first hx within (by simp [rest]) (.inl rest) done done' c
    case isFalse more =>
      obtain ⟨y, r, rest⟩ := List.exists_cons_of_ne_nil fun h => more (List.isEmpty_iff.mpr h)
      have rest' : d.rest = y :: (r ++ ';' :: b) := by rw [within.rest, rest, List.cons_append]
      have more' : ¬ d.atEnd := by simp [Cursor.atEnd, rest']
      cases taken : c.take? .separator with
      | none =>
        have missing := Cursor.take?_eq_none_iff.mp taken
        rw [rest] at missing
        have missing' : d.take? .separator = none := Cursor.take?_eq_none_iff.mpr
          (rest' ▸ TokenKind.longest?_separator_eq_none missing (r ++ ';' :: b))
        rw [moreStatements_eq, if_neg more', missing', within.describeNext, within.offset]
        exact .stopped ⟨.unexpectedCharacter c.describeNext, c.offset⟩ s c d
      | some p =>
        obtain ⟨m, e⟩ := p
        have passed := Cursor.remaining_take? taken
        dsimp only
        split
        case isTrue atEnd =>
          obtain ⟨inside, starts⟩ := Cursor.inSeparator_of_take? taken (List.isEmpty_iff.mp atEnd)
          exact resumes_at_end first hx within inside (.inr starts) done done' e
        case isFalse goesOn =>
          obtain ⟨hm, rfl⟩ := Cursor.take?_eq_some_iff.mp taken
          obtain ⟨z, t, stop⟩ := List.exists_cons_of_ne_nil fun h => goesOn (List.isEmpty_iff.mpr h)
          have hm' := TokenKind.longest?_separator_append hm stop (';' :: b)
          rw [← within.rest] at hm'
          have within' := within.pass apart.leadingBlank hm
          rw [moreStatements_eq actions done', if_neg more', Cursor.take?_eq_some_iff.mpr ⟨hm', rfl⟩]
          simp only
          rw [if_neg (by simp [Cursor.atEnd, within'.rest])]
          refine resumes_andThen (w := ()) ((inside 0 _ apart).expression .loosest rfl within') ?_
          intro v s' e f reached within
          have behind := remaining_expression actions .loosest s (c.pass .separator m)
          exact ih e (by rw [← reached]; omega) within _ _

/-- The statements of `b` behind those of `a`, beside those of `b` alone. -/
theorem ends_resumed {d : Cursor} (offset : d.offset = Text.extent a + 1 + Text.extent (Text.leadingBlank b))
    (rest : d.rest = Text.dropBlank b) (done : Statements Binding) (s : Session) :
    (inside (Text.extent a + 1) (Text.extent b) (.inl rfl : SetApart [])).Ends
      (inside (Text.extent a + 1) (Text.extent b) (.inl rfl : SetApart [])).LastAlike ()
      (statements actions s (.start b))
      ((expression actions .loosest s d).andThen fun v s e => moreStatements actions (done.add v) s e) := by
  have within := Cursor.Within.enter_last offset rest
  refine ((inside _ _ (.inl rfl : SetApart [])).expression .loosest rfl within).andThen ?_
  intro w v v' _ same within alike
  exact Lockstep.moreStatements (inside_separates _ _) same within alike

theorem eq_of_ends {k n : Nat} {r q : Result Session (Statements Binding)}
    (h : (inside k n (.inl rfl : SetApart [])).Ends (inside k n (.inl rfl : SetApart [])).LastAlike ()
      r q) : (q.outcome.map Statements.last, q.state) =
        ((r.outcome.map Statements.last).mapError (Error.delayed k), r.state) := by
  obtain ⟨_, -, same, -, alike⟩ := h.alike fun _ _ => id
  obtain ⟨outcome, s, c⟩ := r
  obtain ⟨outcome', s', d⟩ := q
  obtain rfl : s = s' := same
  cases outcome with
  | ok v =>
    cases outcome' with
    | ok v' => exact Prod.ext (congrArg Except.ok (Eq.symm alike)) rfl
    | error e => exact alike.elim
  | error e =>
    cases outcome' with
    | ok v => exact alike.elim
    | error e' =>
      obtain rfl : e' = e.within k [] := alike
      rw [Error.within, Fault.before_end]
      rfl

end Grammar

namespace Session

theorem valued_mapError (f : Error → Error) (r : Except Error Binding × Session) :
    valued (r.1.mapError f, r.2) = ((valued r).1.mapError f, (valued r).2) := by
  obtain ⟨_ | b, s⟩ := r <;> rfl

theorem result_sequence {a b u : Text} {x : Char} (first : Text.dropBlank b = x :: u) (hx : x ≠ ';')
    (s : Session) : s.result (a ++ ';' :: b) =
      match s.result a with
      | (.ok _, s') => ((s'.result b).1.mapError (Error.delayed (Text.extent a + 1)), (s'.result b).2)
      | (.error e, s') => (.error (e.within 0 (';' :: b)), s') := by
  have apart : SetApart (';' :: b) := .inr ⟨b, rfl⟩
  have resumes : Grammar.Resumes a b (Grammar.statements actions s (.start a))
      (Grammar.statements actions s (.start (a ++ ';' :: b))) := by
    refine Grammar.resumes_andThen (w := ())
      ((Grammar.inside 0 _ apart).expression .loosest rfl (.start apart.leadingBlank a)) ?_
    intro v s' c d _ within
    exact Grammar.resumes_moreStatements first hx within _ _
  unfold result
  generalize Grammar.statements actions s (.start a) = r at resumes
  generalize Grammar.statements actions s (.start (a ++ ';' :: b)) = q at resumes
  cases resumes with
  | stopped e s c d => rfl
  | @resumed done done' s' c d offset rest =>
    exact Grammar.eq_of_ends (Grammar.ends_resumed offset rest done' s')

/-- Two texts with a `;` between them are evaluated one after the other, unless the first one fails:
then nothing of the second has any effect, and the `;` is found where the first one ended. -/
theorem evaluate_sequence {a b u : Text} {x : Char} (first : Text.dropBlank b = x :: u) (hx : x ≠ ';')
    (s : Session) : s.evaluate (a ++ ';' :: b) =
      match s.evaluate a with
      | (.ok _, s') =>
        ((s'.evaluate b).1.mapError (Error.delayed (Text.extent a + 1)), (s'.evaluate b).2)
      | (.error e, s') => (.error ⟨e.fault.before "`;`".toList, e.offset⟩, s') := by
  simp only [evaluate_eq]
  rw [result_sequence first hx s]
  generalize s.result a = r
  obtain ⟨e | v, s'⟩ := r
  · rfl
  · exact valued_mapError _ (s'.result b)

/-- A `;` behind one that ends the first text is part of the same separator. -/
theorem evaluate_sequence_ended :
    Text.dropBlank " x".toList = 'x' :: [] ∧ 'x' ≠ ';' ∧
    Session.initial.evaluate ("x = 2; ".toList ++ ';' :: " x".toList) =
      match Session.initial.evaluate "x = 2; ".toList with
      | (.ok _, s') =>
        ((s'.evaluate " x".toList).1.mapError (Error.delayed (Text.extent "x = 2; ".toList + 1)),
          (s'.evaluate " x".toList).2)
      | (.error e, s') => (.error ⟨e.fault.before "`;`".toList, e.offset⟩, s') :=
  ⟨rfl, by decide, evaluate_sequence rfl (by decide) .initial⟩

end Session

end Calculator
