import Calculator.Proofs.Grammar.Progress

/-!
# The rules come to an end

Every routine ends, whatever stands at its cursor: visited with the calls of rules on record, it comes
to what the rule ends in, and the number of visits is linear in the bytes that are passed
(`visit_entered`). Two facts carry the induction. A visit stands behind a token that the visit it is
part of has not passed, unless its routine is tighter (`Visit.Contains`); and a routine that succeeds
has passed enough to pay for all its visits (`Visit.Affords`).
-/

namespace Calculator.Grammar

variable {σ β : Type} {A : Actions σ β}

/-! ### Visits within a visit -/

namespace Visit

/-- `b` can be part of `a`: it is not before it, and only a tighter routine can be entered without
passing a token. -/
structure Contains (a b : Visit σ β) : Prop where
  reaches : a.cursor.Reaches b.cursor
  later : b.routine.tightness ≤ a.routine.tightness → a.cursor.offset < b.cursor.offset

variable {a b d : Visit σ β}

theorem Contains.trans (h : a.Contains b) (h' : b.Contains d) : a.Contains d := by
  refine ⟨h.reaches.trans h'.reaches, fun looser => ?_⟩
  have := h.reaches.le
  have := h'.reaches.le
  by_cases first : b.routine.tightness ≤ a.routine.tightness
  · have := h.later first
    omega
  -- `b` is tighter than `a`, and `d` is not, so that the token is between `b` and `d`
  · have := h'.later (by omega)
    omega

theorem Contains.of_tighter (h : a.cursor.Reaches b.cursor)
    (tighter : a.routine.tightness < b.routine.tightness) : a.Contains b :=
  ⟨h, fun looser => absurd tighter (by omega)⟩

theorem Contains.of_passed (h : a.cursor.Passed b.cursor) : a.Contains b :=
  ⟨h.reaches, fun _ => h.lt⟩

/-- How deep the calls of a visit can be nested. -/
def depth (a : Visit σ β) : Nat :=
  33 * Text.extent a.cursor.rest + (32 - a.routine.tightness)

theorem tightness_le (routine : Routine β) : routine.tightness ≤ 32 := by
  cases routine with
  | expression l | operand l =>
    have := l.rank_le
    simp only [Routine.tightness]
    omega
  | _ => simp only [Routine.tightness]; omega

theorem Contains.depth_lt (h : a.Contains b) : b.depth < a.depth := by
  have := h.reaches.offset
  have := h.reaches.le
  have := tightness_le a.routine
  have := tightness_le b.routine
  unfold depth
  by_cases looser : b.routine.tightness ≤ a.routine.tightness
  · have := h.later looser
    omega
  · omega

/-- What `n` visits in all may have cost: 64 for each byte that has been passed, and some more behind
an error. A routine that has succeeded leaves enough for the looser routines it is part of. -/
structure Affords (a : Visit σ β) (r : Result σ β) (n : Nat) : Prop where
  ok : ∀ v, r.outcome = .ok v →
    n + 2 * a.routine.tightness + 64 * a.cursor.offset ≤ 64 * r.cursor.offset + 3
  error : ∀ e, r.outcome = .error e →
    n + a.routine.tightness + 64 * a.cursor.offset ≤ 64 * r.cursor.offset + 33

theorem Affords.of_le {r : Result σ β} {n : Nat}
    (h : n + 2 * a.routine.tightness + 64 * a.cursor.offset ≤ 64 * r.cursor.offset + 3) :
    a.Affords r n :=
  ⟨fun _ _ => h, fun _ _ => by omega⟩

theorem Affords.of_ok {v : β} {n : Nat} {s : σ} {c : Cursor}
    (h : n + 2 * a.routine.tightness + 64 * a.cursor.offset ≤ 64 * c.offset + 3) :
    a.Affords (.ok v s c) n :=
  .of_le h

theorem Affords.of_fail {fault : Fault} {k n : Nat} {s : σ} {c : Cursor}
    (h : n + a.routine.tightness + 64 * a.cursor.offset ≤ 64 * c.offset + 33) :
    a.Affords (.fail fault k s c) n :=
  ⟨fun _ same => (nomatch same), fun _ _ => h⟩

theorem Affords.le {r : Result σ β} {n : Nat} (h : a.Affords r n) :
    n + 64 * a.cursor.offset ≤ 64 * r.cursor.offset + 33 := by
  cases outcome : r.outcome with
  | ok v =>
    have := h.ok v outcome
    omega
  | error e =>
    have := h.error e outcome
    omega

/-! ### What visiting comes to -/

/-- The visits `nested`, latest first, are part of `a` and go on from the offset `m` to `n`. -/
structure Trail (a : Visit σ β) (m n : Nat) (nested : List (Visit σ β)) : Prop where
  part : ∀ b ∈ nested, a.Contains b
  within : ∀ b ∈ nested, m ≤ b.cursor.offset ∧ b.cursor.offset ≤ n
  sorted : nested.Pairwise fun later earlier => earlier.cursor.offset ≤ later.cursor.offset

theorem Trail.nil {m n : Nat} : a.Trail m n [] :=
  ⟨fun _ hb => (nomatch hb), fun _ hb => (nomatch hb), .nil⟩

theorem Trail.append {k m n : Nat} {later nested : List (Visit σ β)} (h : a.Trail m n later)
    (first : a.Trail k m nested) (km : k ≤ m) (mn : m ≤ n) : a.Trail k n (later ++ nested) where
  part := List.forall_mem_append.mpr ⟨h.part, first.part⟩
  within := List.forall_mem_append.mpr
    ⟨fun b hb => ⟨km.trans (h.within b hb).1, (h.within b hb).2⟩,
      fun b hb => ⟨(first.within b hb).1, (first.within b hb).2.trans mn⟩⟩
  sorted := List.pairwise_append.mpr ⟨h.sorted, first.sorted,
    fun b hb d hd => (first.within d hd).2.trans (h.within b hb).1⟩

/-- What is part of a part, and the part itself before it. -/
theorem Trail.inside {m n : Nat} {nested : List (Visit σ β)} (h : b.Trail b.cursor.offset n nested)
    (inside : a.Contains b) (mb : m ≤ b.cursor.offset) (bn : b.cursor.offset ≤ n) :
    a.Trail m n (nested ++ [b]) := by
  have all : a.Trail b.cursor.offset n nested :=
    ⟨fun d hd => inside.trans (h.part d hd), h.within, h.sorted⟩
  have self : a.Trail m b.cursor.offset [b] :=
    ⟨by simpa using inside, by simpa using mb, List.pairwise_singleton _ _⟩
  exact all.append self mb bn

/-- From the offset `m` on, after `n` visits, `x` comes to `r` by visits that are part of `a`. -/
structure Comes (a : Visit σ β) (m n : Nat) (x : Recorded σ β (Result σ β)) (r : Result σ β)
    (nested : List (Visit σ β)) : Prop where
  record : ∀ log, x log = some (r, nested ++ log)
  le : m ≤ r.cursor.offset
  trail : a.Trail m r.cursor.offset nested
  affords : a.Affords r (n + nested.length)

def Ends (a : Visit σ β) (m n : Nat) (x : Recorded σ β (Result σ β)) (r : Result σ β) : Prop :=
  ∃ nested, a.Comes m n x r nested

/-- Entering `b` comes to what its rule ends in, and puts `b` and its parts on record. -/
def Entered (A : Actions σ β) (call : Visit σ β → Recorded σ β (Result σ β)) (b : Visit σ β) : Prop :=
  ∃ nested, (∀ log, call b log = some (b.run A, nested ++ b :: log)) ∧
    b.Trail b.cursor.offset (b.run A).cursor.offset nested ∧
    b.Affords (b.run A) (nested.length + 1)

def Covers (A : Actions σ β) (call : Visit σ β → Recorded σ β (Result σ β)) (a : Visit σ β) : Prop :=
  ∀ b, a.Contains b → Entered A call b

variable {call : Visit σ β → Recorded σ β (Result σ β)} {m n : Nat}

theorem Ends.pure {r : Result σ β} (le : m ≤ r.cursor.offset) (h : a.Affords r n) :
    a.Ends m n (Pure.pure r) r :=
  ⟨[], fun _ => rfl, le, .nil, h⟩

/-- Where nothing more is done, the costs of `b` are all that is added. -/
theorem Ends.of_entered (entered : Covers A call a) (inside : a.Contains b)
    (le : m ≤ b.cursor.offset)
    (ok : n + 2 * a.routine.tightness + 64 * a.cursor.offset ≤
      2 * b.routine.tightness + 64 * b.cursor.offset)
    (error : n + a.routine.tightness + 64 * a.cursor.offset ≤
      b.routine.tightness + 64 * b.cursor.offset) :
    a.Ends m n (call b) (b.run A) := by
  have reached := (reaches_run A b).le
  obtain ⟨nested, visited, trail, affords⟩ := entered b inside
  refine ⟨nested ++ [b], fun log => by simp [visited], le.trans reached,
    trail.inside inside le reached, fun v hv => ?_, fun e he => ?_⟩
  · have := affords.ok v hv
    rw [List.length_append, List.length_singleton]
    omega
  · have := affords.error e he
    rw [List.length_append, List.length_singleton]
    omega

/-- What follows where `b` has succeeded has been paid for up to there. -/
theorem Ends.onward {f : β → σ → Cursor → Recorded σ β (Result σ β)}
    {g : β → σ → Cursor → Result σ β} (entered : Covers A call a) (inside : a.Contains b)
    (le : m ≤ b.cursor.offset)
    (error : n + a.routine.tightness + 64 * a.cursor.offset ≤
      b.routine.tightness + 64 * b.cursor.offset)
    (next : ∀ k v s d, b.cursor.Reaches d → 1 ≤ k →
      k + 2 * b.routine.tightness + 64 * b.cursor.offset ≤ 64 * d.offset + 3 →
      a.Ends d.offset (n + k) (f v s d) (g v s d)) :
    a.Ends m n (call b >>= fun r => r.onward f) ((b.run A).andThen g) := by
  have reaches := reaches_run A b
  obtain ⟨nested, visited, trail, affords⟩ := entered b inside
  have first (log : List (Visit σ β)) : (call b >>= fun r => r.onward f) log =
      (b.run A).onward f (nested ++ b :: log) := by
    show (call b log).bind _ = _
    rw [visited]
    rfl
  have part := trail.inside inside le reaches.le
  generalize b.run A = r at reaches trail part affords first
  -- behind an error nothing follows, so that only what `b` may cost then is asked for
  obtain ⟨e | v, s, d⟩ := r
  · refine ⟨nested ++ [b], fun log => ?_, le.trans reaches.le, part, fun v hv => (nomatch hv),
      fun _ _ => ?_⟩
    · rw [first, List.append_assoc]
      rfl
    · have := affords.error e rfl
      rw [List.length_append, List.length_singleton]
      show _ ≤ 64 * d.offset + 33
      dsimp only at this
      omega
  · obtain ⟨later, visited', reached, trail', affords'⟩ :=
      next (nested.length + 1) v s d reaches (by omega) (affords.ok v rfl)
    refine ⟨later ++ (nested ++ [b]), fun log => ?_, ?_, ?_, ?_⟩
    · rw [first]
      show f v s d (nested ++ b :: log) = _
      rw [visited']
      simp
      rfl
    · exact (le.trans reaches.le).trans reached
    · exact trail'.append part (le.trans reaches.le) reached
    · have count : n + (later ++ (nested ++ [b])).length = n + (nested.length + 1) + later.length := by
        simp only [List.length_append, List.length_singleton]
        omega
      exact count ▸ affords'

/-- An action between the visits. -/
theorem Ends.applied {op : Operator} {vs : List β} {offset : Nat} {s : σ} {c : Cursor}
    {f : β → σ → Cursor → Recorded σ β (Result σ β)} {g : β → σ → Cursor → Result σ β}
    (le : m ≤ c.offset)
    (error : n + a.routine.tightness + 64 * a.cursor.offset ≤ 64 * c.offset + 33)
    (next : ∀ v s, a.Ends m n (f v s c) (g v s c)) :
    a.Ends m n ((applyAt A op vs offset s c).onward f) ((applyAt A op vs offset s c).andThen g) := by
  rw [applyAt_eq]
  obtain ⟨fault | v, t⟩ := A.apply op offset vs s
  · exact .pure le (.of_fail error)
  · exact next v t

/-! ### The routines -/

variable {s : σ} {c : Cursor}

/-- A tighter routine takes over where this one was entered. -/
theorem Ends.tighter {routine next : Routine β} (entered : Covers A call ⟨routine, s, c⟩)
    (tighter : routine.tightness < next.tightness) :
    Ends ⟨routine, s, c⟩ c.offset 1 (call ⟨next, s, c⟩) (run A ⟨next, s, c⟩) := by
  have inside : (⟨routine, s, c⟩ : Visit σ β).Contains ⟨next, s, c⟩ := .of_tighter (.refl c) tighter
  refine Ends.of_entered entered inside (Nat.le_refl _) ?_ ?_
  all_goals
    dsimp only
    omega

theorem ends_statements (entered : Covers A call ⟨.statements, s, c⟩) :
    Ends ⟨.statements, s, c⟩ c.offset 1 (body A call ⟨.statements, s, c⟩)
      (run A ⟨.statements, s, c⟩) := by
  have split : run A ⟨.statements, s, c⟩ = (run A ⟨.expression .loosest, s, c⟩).andThen
      fun v s d => run A ⟨.moreStatements (.single v), s, d⟩ :=
    Result.andThen_assoc (expression A .loosest s c) _ _
  have first : (⟨.statements, s, c⟩ : Visit σ β).Contains ⟨.expression .loosest, s, c⟩ :=
    .of_tighter (.refl c) (by dsimp only [Routine.tightness]; omega)
  rw [split]
  refine Ends.onward entered first (Nat.le_refl _) (by dsimp only [Routine.tightness]; omega) ?_
  intro k v t d reached more paid
  have rest : (⟨.statements, s, c⟩ : Visit σ β).Contains ⟨.moreStatements (.single v), t, d⟩ :=
    .of_tighter reached (by dsimp only [Routine.tightness]; omega)
  refine Ends.of_entered entered rest (Nat.le_refl _) ?_ ?_
  all_goals
    dsimp only [Routine.tightness] at paid ⊢
    omega

theorem ends_expression (l : Level) (entered : Covers A call ⟨.expression l, s, c⟩) :
    Ends ⟨.expression l, s, c⟩ c.offset 1 (body A call ⟨.expression l, s, c⟩)
      (run A ⟨.expression l, s, c⟩) := by
  have split : run A ⟨.expression l, s, c⟩ = (run A ⟨.operand l, s, c⟩).andThen
      fun v s d => run A ⟨.chain l v, s, d⟩ := expression_eq A l s c
  have first : (⟨.expression l, s, c⟩ : Visit σ β).Contains ⟨.operand l, s, c⟩ :=
    .of_tighter (.refl c) (by dsimp only [Routine.tightness]; omega)
  rw [split]
  refine Ends.onward entered first (Nat.le_refl _) (by dsimp only [Routine.tightness]; omega) ?_
  intro k v t d reached more paid
  dsimp only [Routine.tightness] at paid
  -- an operand that has succeeded cannot have paid for itself without a byte
  have lt : c.offset < d.offset := by omega
  have rest : (⟨.expression l, s, c⟩ : Visit σ β).Contains ⟨.chain l v, t, d⟩ :=
    .of_passed ⟨reached, lt⟩
  refine Ends.of_entered entered rest (Nat.le_refl _) ?_ ?_
  all_goals
    dsimp only [Routine.tightness]
    omega

theorem ends_operand (l : Level) (entered : Covers A call ⟨.operand l, s, c⟩) :
    Ends ⟨.operand l, s, c⟩ c.offset 1 (body A call ⟨.operand l, s, c⟩)
      (run A ⟨.operand l, s, c⟩) := by
  cases hl : l.next? with
  | some next =>
    have := Level.rank_next? hl
    have reads : run A ⟨.operand l, s, c⟩ = run A ⟨.expression next, s, c⟩ := by
      show operand A l s c = _
      rw [operand_eq, hl]
      rfl
    have does : body A call ⟨.operand l, s, c⟩ = call ⟨.expression next, s, c⟩ := by
      simp only [body, hl]
    rw [reads, does]
    exact Ends.tighter entered (by dsimp only [Routine.tightness]; omega)
  | none =>
    have := l.rank_le
    have reads : run A ⟨.operand l, s, c⟩ = run A ⟨.term, s, c⟩ := by
      show operand A l s c = _
      rw [operand_eq, hl]
      rfl
    have does : body A call ⟨.operand l, s, c⟩ = call ⟨.term, s, c⟩ := by
      simp only [body, hl]
    rw [reads, does]
    exact Ends.tighter entered (by dsimp only [Routine.tightness]; omega)

theorem ends_moreStatements (done : Statements β)
    (entered : Covers A call ⟨.moreStatements done, s, c⟩) :
    Ends ⟨.moreStatements done, s, c⟩ c.offset 1 (body A call ⟨.moreStatements done, s, c⟩)
      (run A ⟨.moreStatements done, s, c⟩) := by
  have reads : run A ⟨.moreStatements done, s, c⟩ = (moreStatements A done s c).last := rfl
  have does : body A call ⟨.moreStatements done, s, c⟩ = bodyMoreStatements call done s c := rfl
  rw [reads, does, moreStatements_eq, bodyMoreStatements]
  by_cases ended : c.atEnd = true
  · rw [if_pos ended, if_pos ended]
    exact .pure (Nat.le_refl _) (.of_ok (by dsimp only [Routine.tightness]; omega))
  rw [if_neg ended, if_neg ended]
  cases taken : c.take? .separator with
  | none => exact .pure (Nat.le_refl _) (.of_fail (by dsimp only [Routine.tightness]; omega))
  | some p =>
    obtain ⟨_, d⟩ := p
    have passed := Cursor.passed_of_take? taken
    have lt := passed.lt
    dsimp only
    by_cases last : d.atEnd = true
    · rw [if_pos last, if_pos last]
      exact .pure passed.reaches.le (.of_ok (by dsimp only [Routine.tightness]; omega))
    rw [if_neg last, if_neg last, Result.last, Result.andThen_assoc]
    have next : (⟨.moreStatements done, s, c⟩ : Visit σ β).Contains ⟨.expression .loosest, s, d⟩ :=
      .of_passed passed
    refine Ends.onward entered next passed.reaches.le (by dsimp only [Routine.tightness]; omega) ?_
    intro k v t e reached more paid
    have rest : (⟨.moreStatements done, s, c⟩ : Visit σ β).Contains
        ⟨.moreStatements (done.add v), t, e⟩ := .of_passed (passed.before reached)
    refine Ends.of_entered entered rest (Nat.le_refl _) ?_ ?_
    all_goals
      dsimp only [Routine.tightness] at paid ⊢
      omega

theorem run_right (op : Operator) (l : Level) (s : σ) (c : Cursor) :
    run A ⟨.right op l, s, c⟩ = rightOperand A op l s c := by
  unfold Routine.right rightOperand
  cases op.associativity <;> rfl

theorem two_le_tightness_right (op : Operator) (l : Level) :
    2 ≤ (Routine.right op l : Routine β).tightness := by
  unfold Routine.right
  cases op.associativity <;> (dsimp only [Routine.tightness]; omega)

theorem ends_chain (l : Level) (left : β) (entered : Covers A call ⟨.chain l left, s, c⟩) :
    Ends ⟨.chain l left, s, c⟩ c.offset 1 (body A call ⟨.chain l left, s, c⟩)
      (run A ⟨.chain l left, s, c⟩) := by
  have reads : run A ⟨.chain l left, s, c⟩ = chain A l left s c := rfl
  have does : body A call ⟨.chain l left, s, c⟩ = bodyChain A call l left s c := rfl
  rw [reads, does, bodyChain]
  cases hx : c.atLevel? l with
  | none =>
    rw [chain_of_none A hx]
    exact .pure (Nat.le_refl _) (.of_ok (by dsimp only [Routine.tightness]; omega))
  | some p =>
    obtain ⟨op, d⟩ := p
    have passed := Cursor.passed_of_atLevel? hx
    have lt := passed.lt
    rw [chain_of_some A hx, operated]
    dsimp only
    by_cases arity : op.arity = 1
    · rw [if_pos arity, if_pos arity]
      refine Ends.applied passed.reaches.le (by dsimp only [Routine.tightness]; omega) fun v t => ?_
      have rest : (⟨.chain l left, s, c⟩ : Visit σ β).Contains ⟨.chain l v, t, d⟩ :=
        .of_passed passed
      refine Ends.of_entered entered rest passed.reaches.le ?_ ?_
      all_goals
        dsimp only [Routine.tightness]
        omega
    · rw [if_neg arity, if_neg arity, Result.andThen_assoc, ← run_right]
      have two := two_le_tightness_right (β := β) op l
      have inside : (⟨.chain l left, s, c⟩ : Visit σ β).Contains ⟨.right op l, s, d⟩ :=
        .of_passed passed
      refine Ends.onward entered inside passed.reaches.le (by dsimp only [Routine.tightness]; omega) ?_
      intro k right t e reached more paid
      dsimp only at paid
      refine Ends.applied (Nat.le_refl _) (by dsimp only [Routine.tightness]; omega) fun v u => ?_
      have rest : (⟨.chain l left, s, c⟩ : Visit σ β).Contains ⟨.chain l v, u, e⟩ :=
        .of_passed (passed.before reached)
      refine Ends.of_entered entered rest (Nat.le_refl _) ?_ ?_
      all_goals
        dsimp only [Routine.tightness]
        omega

theorem ends_term (entered : Covers A call ⟨.term, s, c⟩) :
    Ends ⟨.term, s, c⟩ c.offset 1 (body A call ⟨.term, s, c⟩) (run A ⟨.term, s, c⟩) := by
  have reads : run A ⟨.term, s, c⟩ = _ := term_eq A s c
  have does : body A call ⟨.term, s, c⟩ = bodyTerm A call s c := rfl
  rw [reads, does, bodyTerm]
  cases before : c.beforeOperand? with
  | none => exact Ends.tighter entered (by dsimp only [Routine.tightness]; omega)
  | some p =>
    obtain ⟨op, d⟩ := p
    have passed := Cursor.passed_of_beforeOperand? before
    have lt := passed.lt
    have inside : (⟨.term, s, c⟩ : Visit σ β).Contains ⟨.term, s, d⟩ := .of_passed passed
    refine Ends.onward entered inside passed.reaches.le (by dsimp only [Routine.tightness]; omega) ?_
    intro k v t e reached more paid
    dsimp only [Routine.tightness] at paid
    have same := cursor_applyAt A op [v] c.offset t e
    refine Ends.pure (by rw [same]) (.of_le ?_)
    rw [same]
    dsimp only [Routine.tightness]
    omega

theorem ends_parenthesized (entered : Covers A call ⟨.parenthesized, s, c⟩) :
    Ends ⟨.parenthesized, s, c⟩ c.offset 1 (body A call ⟨.parenthesized, s, c⟩)
      (run A ⟨.parenthesized, s, c⟩) := by
  have reads : run A ⟨.parenthesized, s, c⟩ = _ := parenthesized_eq A s c
  have does : body A call ⟨.parenthesized, s, c⟩ = bodyParenthesized call s c := rfl
  rw [reads, does, bodyParenthesized]
  cases opened : c.take? .openParen with
  | none => exact Ends.tighter entered (by dsimp only [Routine.tightness]; omega)
  | some p =>
    obtain ⟨_, d⟩ := p
    have passed := Cursor.passed_of_take? opened
    have lt := passed.lt
    have inside : (⟨.parenthesized, s, c⟩ : Visit σ β).Contains ⟨.expression .loosest, s, d⟩ :=
      .of_passed passed
    refine Ends.onward entered inside passed.reaches.le (by dsimp only [Routine.tightness]; omega) ?_
    intro k v t e reached more paid
    dsimp only [Routine.tightness] at paid
    cases closed : e.take? .closeParen with
    | none =>
      exact .pure (Nat.le_refl _) (.of_fail (by dsimp only [Routine.tightness]; omega))
    | some p =>
      obtain ⟨_, f⟩ := p
      have behind := Cursor.passed_of_take? closed
      have := behind.lt
      exact .pure behind.reaches.le (.of_ok (by dsimp only [Routine.tightness]; omega))

/-- What an atom is has been passed. -/
theorem lt_of_atom {v : β} (h : (atom A s c).outcome = .ok v) :
    c.offset < (atom A s c).cursor.offset := by
  rw [atom_eq] at h ⊢
  cases number : c.take? .number with
  | some p =>
    obtain ⟨m, d⟩ := p
    simp only [number] at h ⊢
    split at h
    · exact (Cursor.passed_of_take? number).lt
    · cases h
  | none =>
    cases name : c.take? .name with
    | none =>
      simp only [number, name] at h
      cases h
    | some p =>
      obtain ⟨m, d⟩ := p
      have lt := (Cursor.passed_of_take? name).lt
      dsimp only
      split
      · exact Nat.lt_of_lt_of_le lt (reaches_updated A _ _ d).le
      · exact lt

theorem ends_atom : Ends ⟨.atom, s, c⟩ c.offset 1 (body A call ⟨.atom, s, c⟩)
    (run A ⟨.atom, s, c⟩) := by
  have reached : c.offset ≤ (atom A s c).cursor.offset := (reaches_run A ⟨.atom, s, c⟩).le
  have reads : run A ⟨.atom, s, c⟩ = atom A s c := rfl
  rw [reads]
  refine .pure reached ⟨fun v hv => ?_, fun e _ => ?_⟩
  · have : c.offset < (atom A s c).cursor.offset := lt_of_atom hv
    dsimp only [Routine.tightness]
    omega
  · dsimp only [Routine.tightness]
    omega

theorem ends_body (a : Visit σ β) (entered : Covers A call a) :
    Ends a a.cursor.offset 1 (body A call a) (run A a) := by
  obtain ⟨routine, s, c⟩ := a
  cases routine with
  | statements => exact ends_statements entered
  | moreStatements done => exact ends_moreStatements done entered
  | expression l => exact ends_expression l entered
  | operand l => exact ends_operand l entered
  | chain l left => exact ends_chain l left entered
  | term => exact ends_term entered
  | parenthesized => exact ends_parenthesized entered
  | atom => exact ends_atom

end Visit

/-- A visit with enough depth comes to what its rule ends in. -/
theorem visit_entered {depth : Nat} {a : Visit σ β} (enough : a.depth < depth) :
    Visit.Entered A (visit A depth) a := by
  -- every visit that can be part of this one needs less depth
  induction depth generalizing a with
  | zero => omega
  | succ depth ih =>
    obtain ⟨nested, does, le, trail, affords⟩ :=
      Visit.ends_body a fun b inside => ih (by have := inside.depth_lt; omega)
    refine ⟨nested, fun log => does (a :: log), trail, ?_⟩
    rw [Nat.add_comm]
    exact affords

end Calculator.Grammar
