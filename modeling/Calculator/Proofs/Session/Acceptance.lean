import Calculator.Proofs.Tree.Interpretation
import Calculator.Proofs.Tree.Reading

/-!
# What evaluations accept

An evaluation succeeds for the texts of the grammar and for no others, in every reachable session
(`Session.evaluate_ok_iff_accepts`). Between the two stands the tree of a phrase: the grammar
derives a phrase exactly if the phrase is read as a tree that has a value.
-/

namespace Calculator

/-- In every session the tree has a value, which is a variable or not as `a` tells. -/
def Tree.Yields (t : Tree) (a : Bool) : Prop :=
  ∀ s : Session, s.Sound → ∃ b s', t.interpret s = (.ok b, s') ∧ b.isVariable = a ∧ s'.Sound

namespace Operator

theorem writes_of_left {op : Operator} {l : Level} (hl : op.level? = some l)
    (h : op.associativity = .left) : Grammar.writes op = false := by
  cases op <;> first | rfl | exact absurd h (by decide) | exact nomatch hl

theorem ne_comma_of_right {op : Operator} (h : op.associativity = .right) : op ≠ comma := by
  rintro rfl
  cases h

end Operator

namespace Session

variable {s s' : Session} {op : Operator} {n : Nat} {vs : List Binding} {b : Binding}

theorem applyAt_ok (h : s.applyAt op n vs = (.ok b, s')) (hl : vs.length = op.arity)
    (sound : s.Sound) : op.Permits (vs.map Binding.isVariable) ∧
      b.isVariable = op.yieldsVariable (vs.map Binding.isVariable) ∧ s'.Sound := by
  by_cases hp : op.Permits (vs.map Binding.isVariable)
  · obtain ⟨b', m, applied, same⟩ := s.applyAt_of_permits vs hl hp n
    rw [applied] at h
    cases h
    exact ⟨hp, same, sound⟩
  · rw [applyAt_of_not_permits hl hp] at h
    cases h

end Session

namespace Tree

variable {s s' : Session} {t u : Tree} {op : Operator} {n : Nat} {b : Binding}

theorem interpret_unary_ok (h : (unary op n t).interpret s = (.ok b, s')) :
    ∃ x s₁, t.interpret s = (.ok x, s₁) ∧ s₁.applyAt op n [x] = (.ok b, s') := by
  rw [interpret] at h
  split at h
  case h_1 x s₁ hx => exact ⟨x, s₁, hx, h⟩
  case h_2 => cases h

theorem interpret_binary_ok (h : (binary op n t u).interpret s = (.ok b, s')) :
    ∃ x s₁ y s₂, t.interpret s = (.ok x, s₁) ∧ u.interpret s₁ = (.ok y, s₂) ∧
      s₂.applyAt op n [x, y] = (.ok b, s') := by
  rw [interpret] at h
  split at h
  case h_1 x s₁ hx =>
    split at h
    case h_1 y s₂ hy => exact ⟨x, s₁, y, s₂, hx, hy, h⟩
    case h_2 => cases h
  case h_2 => cases h

theorem Yields.name (m : Text) : (name m).Yields (!Environment.isConstant m) := by
  intro s sound
  obtain ⟨same, kept⟩ := sound.lookup m
  exact ⟨_, _, rfl, same, kept⟩

theorem Yields.unary {x : Bool} (h : t.Yields x) (arity : op.arity = 1) (hp : op.Permits [x])
    (n : Nat) : (unary op n t).Yields (op.yieldsVariable [x]) := by
  intro s sound
  obtain ⟨b, s', hb, rfl, sound'⟩ := h s sound
  obtain ⟨b', m, applied, same⟩ := s'.applyAt_of_permits [b] arity.symm hp n
  exact ⟨b', { s' with memory := m }, by simp only [interpret, hb, applied], same, sound'⟩

theorem Yields.binary {x y : Bool} (left : t.Yields x) (right : u.Yields y) (arity : op.arity = 2)
    (hp : op.Permits [x, y]) (n : Nat) : (binary op n t u).Yields (op.yieldsVariable [x, y]) := by
  intro s sound
  obtain ⟨b, s₁, hb, rfl, sound₁⟩ := left s sound
  obtain ⟨b', s₂, hb', rfl, sound₂⟩ := right s₁ sound₁
  obtain ⟨b'', m, applied, same⟩ := s₂.applyAt_of_permits [b, b'] arity.symm hp n
  exact ⟨b'', { s₂ with memory := m }, by simp only [interpret, hb, hb', applied], same, sound₂⟩

end Tree

namespace Grammar

open Calculator.Tree (builder)

/-! ### Tokens of the grammar and of a cursor -/

theorem passes_of_take? {k : TokenKind} {m : Text} {c d : Cursor} (taken : c.take? k = some (m, d)) :
    Passes k m c.rest d.rest := by
  obtain ⟨hm, rfl⟩ := Cursor.take?_eq_some_iff.mp taken
  exact ⟨TokenKind.isLongest_of_longest? hm, rfl⟩

theorem Passes.take? {k : TokenKind} {m t : Text} {c : Cursor} (h : Passes k m c.rest t) :
    ∃ d, c.take? k = some (m, d) ∧ d.rest = t :=
  ⟨c.pass k m, Cursor.take?_eq_some_iff.mpr ⟨TokenKind.longest?_eq_some_iff.mpr h.isLongest, rfl⟩,
    h.rest.symm⟩

/-! ### Phrases -/

/-- A phrase whose tree has a value is derived. -/
theorem Reads.derives {p : Phrase} {t : Tree} {c d : Cursor} (h : Reads p t c d) :
    ∀ {s s' : Session} {b : Binding}, s.Sound → t.interpret s = (.ok b, s') →
      Derives p b.isVariable c.rest d.rest ∧ s'.Sound := by
  induction h with
  | operand _ ih =>
    intro s s' b sound h
    obtain ⟨derived, sound'⟩ := ih sound h
    exact ⟨.operand derived, sound'⟩
  | @leftGrouping op l t u c d e f hl arity other _ taken _ left right =>
    intro s s' b sound h
    obtain ⟨x, s₁, y, s₂, hx, hy, h⟩ := Tree.interpret_binary_ok h
    obtain ⟨hleft, sound₁⟩ := left sound hx
    obtain ⟨hright, sound₂⟩ := right sound₁ hy
    obtain ⟨-, same, sound'⟩ := Session.applyAt_ok h arity.symm sound₂
    have derived := Derives.leftGrouping hl arity other hleft (passes_of_take? taken) hright
    rw [same]
    simpa [Operator.yieldsVariable, Operator.writes_of_left hl other] using ⟨derived, sound'⟩
  | @rightGrouping op l t u c d e f hl arity other _ taken _ left right =>
    intro s s' b sound h
    obtain ⟨x, s₁, y, s₂, hx, hy, h⟩ := Tree.interpret_binary_ok h
    obtain ⟨hleft, sound₁⟩ := left sound hx
    obtain ⟨hright, sound₂⟩ := right sound₁ hy
    obtain ⟨hp, same, sound'⟩ := Session.applyAt_ok h arity.symm sound₂
    have derived := Derives.rightGrouping hl arity other hleft (passes_of_take? taken) hright
      fun hw => Option.some.inj (hp hw)
    rw [same]
    simpa [Operator.yieldsVariable, Operator.ne_comma_of_right other] using ⟨derived, sound'⟩
  | @behind op l t c d e hl arity _ taken ih =>
    intro s s' b sound h
    obtain ⟨x, s₁, hx, h⟩ := Tree.interpret_unary_ok h
    obtain ⟨hleft, sound₁⟩ := ih sound hx
    obtain ⟨-, same, sound'⟩ := Session.applyAt_ok h arity.symm sound₁
    have derived := Derives.behind hl arity hleft (passes_of_take? taken)
    rw [same]
    simpa [Operator.yieldsVariable, Operator.level?_eq_some_iff.mp hl] using ⟨derived, sound'⟩
  | @before op t c d e hop taken _ ih =>
    intro s s' b sound h
    obtain ⟨x, s₁, hx, h⟩ := Tree.interpret_unary_ok h
    obtain ⟨hoperand, sound₁⟩ := ih sound hx
    obtain ⟨hp, same, sound'⟩ :=
      Session.applyAt_ok h (Operator.arity_of_beforeOperand hop).symm sound₁
    have derived := Derives.before hop (passes_of_take? taken) hoperand
      fun hw => Option.some.inj (hp hw)
    rw [same]
    simpa [Operator.yieldsVariable, hop] using ⟨derived, sound'⟩
  | atom _ ih =>
    intro s s' b sound h
    obtain ⟨derived, sound'⟩ := ih sound h
    exact ⟨.atom derived, sound'⟩
  | @parentheses m n t c d e f opened _ closed ih =>
    intro s s' b sound h
    obtain ⟨derived, sound'⟩ := ih sound h
    have left := passes_of_take? opened
    have right := passes_of_take? closed
    obtain rfl : m = ['('] := left.isLongest.language
    obtain rfl : n = [')'] := right.isLongest.language
    exact ⟨.parentheses left derived right, sound'⟩
  | number taken =>
    intro s s' b sound h
    cases h
    exact ⟨.number (passes_of_take? taken), sound⟩
  | @name m c d taken =>
    intro s s' b sound h
    obtain ⟨same, kept⟩ := sound.lookup m
    rw [Tree.interpret_name] at h
    obtain ⟨hb, rfl⟩ := Prod.mk.inj h
    rw [← Except.ok.inj hb, same]
    exact ⟨.name (passes_of_take? taken), kept⟩
  | @updated op m c d e taken hc hop found =>
    intro s s' b sound h
    obtain ⟨x, s₁, hx, h⟩ := Tree.interpret_unary_ok h
    rw [Tree.interpret_name] at hx
    have kept : s₁.Sound := (Prod.mk.inj hx).2 ▸ (sound.lookup m).2
    obtain ⟨-, same, sound'⟩ :=
      Session.applyAt_ok h (Operator.arity_of_afterVariable hop).symm kept
    have derived := Derives.updated (passes_of_take? taken) (by simp [hc]) hop (passes_of_take? found)
    rw [same]
    simpa [Operator.yieldsVariable, hop] using ⟨derived, sound'⟩

/-- A derived phrase has a tree that has a value. -/
theorem Derives.reads {p : Phrase} {a : Bool} {s t : Text} (h : Derives p a s t) :
    ∀ c : Cursor, c.rest = s → ∃ u d, Reads p u c d ∧ d.rest = t ∧ u.Yields a := by
  induction h with
  | operand _ ih =>
    intro c hc
    obtain ⟨u, d, read, hd, yields⟩ := ih c hc
    exact ⟨u, d, .operand read, hd, yields⟩
  | @leftGrouping op l a b s t x v hl arity other _ passes _ left right =>
    rintro c rfl
    obtain ⟨u, d, readLeft, rfl, yieldsLeft⟩ := left c rfl
    obtain ⟨e, taken, rfl⟩ := passes.take?
    obtain ⟨w, f, readRight, hf, yieldsRight⟩ := right e rfl
    have hw := Operator.writes_of_left hl other
    have yields := yieldsLeft.binary yieldsRight arity (Operator.permits_of_not_writes hw _) d.offset
    refine ⟨_, f, .leftGrouping hl arity other readLeft taken readRight, hf, ?_⟩
    simpa [Operator.yieldsVariable, hw] using yields
  | @rightGrouping op l a b s t x v hl arity other _ passes _ assignable left right =>
    rintro c rfl
    obtain ⟨u, d, readLeft, rfl, yieldsLeft⟩ := left c rfl
    obtain ⟨e, taken, rfl⟩ := passes.take?
    obtain ⟨w, f, readRight, hf, yieldsRight⟩ := right e rfl
    have yields := yieldsLeft.binary yieldsRight arity
      (fun hw => congrArg some (assignable hw)) d.offset
    refine ⟨_, f, .rightGrouping hl arity other readLeft taken readRight, hf, ?_⟩
    simpa [Operator.yieldsVariable, Operator.ne_comma_of_right other] using yields
  | @behind op l a s t x hl arity _ passes ih =>
    rintro c rfl
    obtain ⟨u, d, read, rfl, yields⟩ := ih c rfl
    obtain ⟨e, taken, he⟩ := passes.take?
    have hw := Operator.writes_of_left hl (Operator.associativity_of_arity hl arity)
    have applied := yields.unary arity (Operator.permits_of_not_writes hw _) d.offset
    refine ⟨_, e, .behind hl arity read taken, he, ?_⟩
    simpa [Operator.yieldsVariable, hw] using applied
  | @before op a s t x hop passes _ assignable ih =>
    rintro c rfl
    obtain ⟨d, taken, rfl⟩ := passes.take?
    obtain ⟨u, e, read, he, yields⟩ := ih d rfl
    have applied := yields.unary (Operator.arity_of_beforeOperand hop)
      (fun hw => congrArg some (assignable hw)) c.offset
    refine ⟨_, e, .before hop taken read, he, ?_⟩
    simpa [Operator.yieldsVariable, hop] using applied
  | atom _ ih =>
    intro c hc
    obtain ⟨u, d, read, hd, yields⟩ := ih c hc
    exact ⟨u, d, .atom read, hd, yields⟩
  | parentheses opened _ closed ih =>
    rintro c rfl
    obtain ⟨d, hd, rfl⟩ := opened.take?
    obtain ⟨u, e, read, rfl, yields⟩ := ih d rfl
    obtain ⟨f, he, hf⟩ := closed.take?
    exact ⟨u, f, .parentheses hd read he, hf, yields⟩
  | @number m s t passes =>
    rintro c rfl
    obtain ⟨d, taken, hd⟩ := passes.take?
    exact ⟨_, d, .number taken, hd, fun s sound => ⟨_, s, rfl, rfl, sound⟩⟩
  | @name m s t passes =>
    rintro c rfl
    obtain ⟨d, taken, hd⟩ := passes.take?
    exact ⟨_, d, .name taken, hd, .name m⟩
  | @updated op m s t x passes hc hop found =>
    rintro c rfl
    obtain ⟨d, taken, rfl⟩ := passes.take?
    obtain ⟨e, next, he⟩ := found.take?
    have yields := (Tree.Yields.name m).unary (Operator.arity_of_afterVariable hop)
      (fun _ => congrArg some hc) d.offset
    refine ⟨_, e, .updated taken (by simpa using hc) hop next, he, ?_⟩
    simpa [Operator.yieldsVariable, hop] using yields

/-! ### Expressions -/

variable {s : Session}

theorem derives_of_expression {s' : Session} {l : Level} {c d : Cursor} {b : Binding}
    (sound : s.Sound) (h : expression Session.actions l s c = .ok b s' d) :
    Derives (.expression l) b.isVariable c.rest d.rest ∧ s'.Sound := by
  have mirrors := Tree.mirrors_expression sound l c
  rw [h] at mirrors
  generalize built : expression builder l () c = q at mirrors
  cases mirrors with
  | ok _ same => exact (reads_of_expression built).derives sound same

theorem expression_of_derives {l : Level} {a : Bool} {c : Cursor} {t : Text} (sound : s.Sound)
    (h : Derives (.expression l) a c.rest t) (closes : ∀ d : Cursor, d.rest = t → d.Closes l.rank) :
    ∃ b s' d, expression Session.actions l s c = .ok b s' d ∧ d.rest = t ∧ s'.Sound := by
  obtain ⟨u, d, read, hd, yields⟩ := h.reads c rfl
  obtain ⟨b, s', value, -, sound'⟩ := yields s sound
  have mirrors := Tree.mirrors_expression sound l c
  rw [read.expression (closes d hd)] at mirrors
  generalize expression Session.actions l s c = r at mirrors
  cases mirrors with
  | ok sound' same => exact ⟨_, _, d, rfl, hd, sound'⟩
  | refused refuses same =>
    rw [same u d rfl] at value
    cases value

/-! ### Statements -/

def EndsOrGoesOn (t : Text) : Prop :=
  t = [] ∨ ∃ m u, Passes .separator m t u ∧ (u = [] ∨ DerivesAll u)

theorem derivesAll_iff {s : Text} :
    DerivesAll s ↔ ∃ a t, Derives (.expression .loosest) a s t ∧ EndsOrGoesOn t := by
  constructor
  · intro h
    cases h with
    | last h => exact ⟨_, _, h, .inl rfl⟩
    | ended h passes => exact ⟨_, _, h, .inr ⟨_, _, passes, .inl rfl⟩⟩
    | more h passes rest => exact ⟨_, _, h, .inr ⟨_, _, passes, .inr rest⟩⟩
  · rintro ⟨a, t, h, rfl | ⟨m, u, passes, rfl | rest⟩⟩
    · exact .last h
    · exact .ended h passes
    · exact .more h passes rest

theorem EndsOrGoesOn.closes {d : Cursor} (h : EndsOrGoesOn d.rest) (n : Nat) : d.Closes n := by
  refine .of_none ?_ n
  rcases h with h | ⟨m, u, passes, -⟩
  · rw [h, TokenKind.longest?_nil]
  · exact TokenKind.longest?_eq_none (TokenKind.longest?_eq_some_iff.mpr passes.isLongest) (by decide)

def Result.Succeeds {σ β : Type} (r : Result σ β) : Prop :=
  ∃ b s c, r = .ok b s c

/-- An expression with more statements behind it, if what stands behind it is known to be right. -/
theorem succeeds_andThen_iff {c : Cursor} (sound : s.Sound)
    {f : Binding → Session → Cursor → Result Session (Statements Binding)}
    (next : ∀ b s' d, s'.Sound → d.remaining ≤ c.remaining →
      ((f b s' d).Succeeds ↔ EndsOrGoesOn d.rest)) :
    ((expression Session.actions .loosest s c).andThen f).Succeeds ↔ DerivesAll c.rest := by
  have reached := remaining_expression Session.actions .loosest s c
  rw [derivesAll_iff]
  constructor
  · rintro ⟨b, s₂, e, h⟩
    obtain ⟨v, s', d, hv, h⟩ := andThen_eq_ok.mp h
    rw [hv] at reached
    obtain ⟨derived, sound'⟩ := derives_of_expression sound hv
    exact ⟨_, _, derived, (next v s' d sound' reached).mp ⟨b, s₂, e, h⟩⟩
  · rintro ⟨a, t, derived, behind⟩
    obtain ⟨v, s', d, hv, rfl, sound'⟩ :=
      expression_of_derives sound derived fun d hd => EndsOrGoesOn.closes (hd ▸ behind) _
    rw [hv] at reached ⊢
    exact (next v s' d sound' reached).mpr behind

theorem moreStatements_succeeds_iff {done : Statements Binding} {c : Cursor} (sound : s.Sound) :
    (moreStatements Session.actions done s c).Succeeds ↔ EndsOrGoesOn c.rest := by
  induction c using Cursor.induction generalizing done s with
  | step c ih =>
    rw [moreStatements_eq]
    split
    case isTrue atEnd => exact iff_of_true ⟨_, _, _, rfl⟩ (.inl (List.isEmpty_iff.mp atEnd))
    case isFalse atEnd =>
      have more : c.rest ≠ [] := fun h => atEnd (by rw [Cursor.atEnd, h]; rfl)
      cases hx : c.take? .separator with
      | none =>
        refine iff_of_false (by rintro ⟨_, _, _, h⟩; cases h) ?_
        rintro (h | ⟨m, u, passes, -⟩)
        · exact more h
        · obtain ⟨d, taken, -⟩ := passes.take?
          rw [hx] at taken
          cases taken
      | some p =>
        obtain ⟨m, d⟩ := p
        have passed := Cursor.remaining_take? hx
        have goesOn : EndsOrGoesOn c.rest ↔ d.rest = [] ∨ DerivesAll d.rest := by
          constructor
          · rintro (h | ⟨m', u, passes, behind⟩)
            · exact absurd h more
            · obtain ⟨e, taken, rfl⟩ := passes.take?
              rw [hx] at taken
              cases taken
              exact behind
          · intro behind
            exact .inr ⟨m, d.rest, passes_of_take? hx, behind⟩
        rw [goesOn]
        dsimp only
        split
        case isTrue atEnd => exact iff_of_true ⟨_, _, _, rfl⟩ (.inl (List.isEmpty_iff.mp atEnd))
        case isFalse atEnd =>
          rw [succeeds_andThen_iff sound fun b s' e sound' hle => ih e (by omega) sound']
          exact ⟨.inr, fun h => h.resolve_left fun h => atEnd (by rw [Cursor.atEnd, h]; rfl)⟩

end Grammar

/-- An evaluation has a value exactly if the text is of the language, whose phrases are written
to only where they are assignable. -/
theorem Session.evaluate_ok_iff_accepts {s : Session} (reached : s.Reachable) (source : Text) :
    (∃ v, (s.evaluate source).1 = .ok v) ↔ Grammar.Accepts source := by
  have succeeds : (Grammar.statements actions s (.start source)).Succeeds ↔ Grammar.Accepts source :=
    Grammar.succeeds_andThen_iff reached.sound fun b s' d sound _ =>
      Grammar.moreStatements_succeeds_iff sound
  rw [← succeeds]
  unfold evaluate
  generalize Grammar.statements actions s (.start source) = r
  obtain ⟨_ | b, s', c⟩ := r
  · exact iff_of_false (by rintro ⟨v, h⟩; cases h) (by rintro ⟨_, _, _, h⟩; cases h)
  · exact iff_of_true ⟨_, rfl⟩ ⟨b, s', c, rfl⟩

/-- The comma passes the variable on its right to the assignment. -/
theorem Session.evaluate_ok_iff_accepts_comma :
    Session.initial.Reachable ∧
    ((∃ v, (Session.initial.evaluate "(1, x) = 2".toList).1 = .ok v) ↔
      Grammar.Accepts "(1, x) = 2".toList) :=
  ⟨.initial, Session.evaluate_ok_iff_accepts .initial _⟩

end Calculator
