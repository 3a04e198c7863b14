import Calculator.Grammar.Log
import Calculator.Proofs.Grammar.Lockstep

/-!
# Two runs at one cursor

A `Simulation` relates two kinds of actions that run on the same text from the same place. It asks
for no relation of cursors and errors, which are the same on both sides: the two runs pass the same
tokens and end at the same place, with related values or with the same error (`Simulation.run`).
-/

namespace Calculator.Grammar

variable {σ τ β γ : Type}

/-- Values that are related on a condition, beside a relation that holds without it. -/
theorem Alike.and {ε δ : Type} {value value' : β → γ → Prop} {error error' : ε → δ → Prop}
    {r : Except ε β} {q : Except δ γ} {p : Prop} (h : Alike value error r q)
    (more : p → Alike value' error' r q) :
    Alike (fun v u => value v u ∧ (p → value' v u)) error r q := by
  rcases r with e | v <;> rcases q with f | u
  · exact h
  · exact h
  · exact h
  · exact ⟨h, more⟩

theorem Alike.and_left {ε δ : Type} {P : β → Prop} {value : β → γ → Prop} {error : ε → δ → Prop}
    {r : Except ε β} {q : Except δ γ} (left : ∀ v, r = .ok v → P v) (h : Alike value error r q) :
    Alike (fun v u => P v ∧ value v u) error r q := by
  rcases r with e | v <;> rcases q with f | u
  · exact h
  · exact h
  · exact h
  · exact ⟨left v rfl, h⟩

/-- Two runs that fail with the same error, seen through what agrees on related values. -/
theorem Alike.map_eq {ε δ : Type} {value : β → γ → Prop} {r : Except ε β} {q : Except ε γ}
    (h : Alike value Eq r q) {f : β → δ} {g : γ → δ} (same : ∀ v u, value v u → f v = g u) :
    r.map f = q.map g := by
  rcases r with e | v <;> rcases q with e' | u
  · exact congrArg Except.error h
  · exact h.elim
  · exact h.elim
  · exact congrArg Except.ok (same v u h)

theorem Result.eq_of_alike {r q : Result σ β} (state : r.state = q.state) (cursor : r.cursor = q.cursor)
    (outcome : Alike Eq Eq r.outcome q.outcome) : r = q := by
  have outcome := outcome.map_eq (f := id) (g := id) fun _ _ same => same
  rw [Except.map_id, id_eq, id_eq] at outcome
  obtain ⟨x, s, c⟩ := r
  obtain ⟨y, t, d⟩ := q
  obtain rfl : x = y := outcome
  obtain rfl : s = t := state
  obtain rfl : c = d := cursor
  rfl

/-- The relations between two runs at one cursor, over worlds `ω` that grow as the runs go on. -/
structure Simulation (ω : Type) (A : Actions σ β) (B : Actions τ γ) where
  grows : ω → ω → Prop
  grows_refl : ∀ w, grows w w
  grows_trans : ∀ {w x y}, grows w x → grows x y → grows w y
  state : ω → σ → τ → Prop
  value : ω → β → γ → Prop
  value_mono : ∀ {w x v u}, grows w x → value w v u → value x v u
  number : ∀ w m, (A.number m = none ∧ B.number m = none) ∨
    ∃ v u, A.number m = some v ∧ B.number m = some u ∧ value w v u
  name : ∀ {w s t} m, state w s t → ∃ x, grows w x ∧ state x (A.name m s).2 (B.name m t).2 ∧
    value x (A.name m s).1 (B.name m t).1
  isVariable : ∀ {w v u}, value w v u → A.isVariable v = B.isVariable u
  apply : ∀ {w s t n vs us op}, vs.length = op.arity → state w s t →
    List.Forall₂ (value w) vs us → ∃ x, grows w x ∧
      state x (A.apply op n vs s).2 (B.apply op n us t).2 ∧
      Alike (value x) Eq (A.apply op n vs s).1 (B.apply op n us t).1

namespace Simulation

variable {ω : Type} {A : Actions σ β} {B : Actions τ γ}

def lockstep (S : Simulation ω A B) : Lockstep ω A B where
  grows := S.grows
  grows_refl := S.grows_refl
  grows_trans := S.grows_trans
  state := S.state
  value := S.value
  cursor _ := Eq
  error := Eq
  lost _ := False
  value_mono := S.value_mono
  longest? h _ _ _ _ := h ▸ rfl
  closeParen h := .inl (h ▸ rfl)
  pass h _ _ _ := h ▸ rfl
  expectedOperand h := h ▸ rfl
  unclosedParenthesis h := h ▸ rfl
  invalidNumber _ h := h ▸ rfl
  number := S.number
  name := S.name
  isVariable := S.isVariable
  apply {w s t p c d vs us op} hl hs hc hv := by
    obtain rfl : c = d := hc
    obtain ⟨x, hle, hs, alike⟩ := S.apply (n := c.offset) hl hs hv
    exact ⟨x, hle, hs, alike.mono id fun h => h ▸ rfl⟩

theorem separates (S : Simulation ω A B) : S.lockstep.Separates where
  atEnd h := h ▸ rfl
  separator {c d} h := by
    obtain rfl : c = d := h
    cases h : c.take? .separator with
    | none => exact .inl ⟨rfl, rfl⟩
    | some p => exact .inr ⟨p.1, p.2, p.2, rfl, rfl, rfl⟩
  ended h _ := h
  unexpectedCharacter h := h ▸ rfl

/-- What the two runs of a rule from one place end in. -/
theorem run (S : Simulation ω A B) {w : ω} {s : σ} {t : τ} (hs : S.state w s t) (rule : Rule)
    (c : Cursor) : ∃ x, S.grows w x ∧ S.state x (rule.run A s c).state (rule.run B t c).state ∧
      (rule.run A s c).cursor = (rule.run B t c).cursor ∧
      Alike (S.value x) Eq (rule.run A s c).outcome (rule.run B t c).outcome := by
  have ends := Lockstep.run S.separates rule hs (c := c) (d := c) rfl
  obtain ⟨x, hle, state, ⟨_, cursor⟩, alike⟩ := ends.alike fun _ _ => id
  exact ⟨x, hle, state, cursor, alike⟩

/-! ### A run with a log and without -/

/-- A log changes nothing else. -/
def ofLogged (A : Actions σ β) : Simulation Unit A.logged A where
  grows _ _ := True
  grows_refl _ := trivial
  grows_trans _ _ := trivial
  state _ s t := s.1 = t
  value _ := Eq
  value_mono _ h := h
  number _ m := A.number_alike m
  name {w s t} m same := by
    subst same
    exact ⟨w, trivial, rfl, rfl⟩
  isVariable same := same ▸ rfl
  apply {w s t n vs us op} _ same alike := by
    subst same
    obtain rfl : vs = us := List.forall₂_eq_eq_eq ▸ alike
    exact ⟨w, trivial, rfl, .refl (A.apply op n vs s.1).1⟩

end Simulation

theorem run_statements (A : Actions σ β) (s : σ) (c : Cursor) :
    Rule.statements.run A s c = ⟨(statements A s c).outcome.map Statements.last,
      (statements A s c).state, (statements A s c).cursor⟩ := by
  unfold Rule.run
  generalize statements A s c = r
  obtain ⟨_ | b, t, d⟩ := r <;> rfl

theorem run_eq_logged (A : Actions σ β) (rule : Rule) (s : σ) (log : List Event) (c : Cursor) :
    rule.run A s c = ⟨(rule.run A.logged (s, log) c).outcome, (rule.run A.logged (s, log) c).state.1,
      (rule.run A.logged (s, log) c).cursor⟩ := by
  obtain ⟨_, -, state, cursor, alike⟩ :=
    (Simulation.ofLogged A).run (w := ()) (s := (s, log)) (t := s) rfl rule c
  exact (Result.eq_of_alike (r := ⟨_, _, _⟩) state cursor alike).symm

/-! ### Operators with the wrong number of operands -/

/-- Two kinds of actions that do the same where an operator has all its operands. -/
def Simulation.ofApply {A : Actions σ β}
    {apply : Operator → Nat → List β → σ → Except Fault β × σ}
    (same : ∀ op n vs s, vs.length = op.arity → apply op n vs s = A.apply op n vs s) :
    Simulation Unit { A with apply } A where
  grows _ _ := True
  grows_refl _ := trivial
  grows_trans _ _ := trivial
  state _ := Eq
  value _ := Eq
  value_mono _ h := h
  number _ m := A.number_alike m
  name m equal := A.name_alike m equal
  isVariable equal := A.isVariable_alike equal
  apply {w s t n vs us op} hl equal alike := by
    subst equal
    obtain rfl : vs = us := List.forall₂_eq_eq_eq ▸ alike
    show ∃ x, True ∧ (apply op n vs s).2 = _ ∧ Alike _ _ (apply op n vs s).1 (A.apply op n vs s).1
    rw [same op n vs s hl]
    exact ⟨w, trivial, rfl, .refl _⟩

/-- The rules give every operator all its operands, so that it does not matter what the actions do
with any other number of them. -/
theorem run_congr_apply {A : Actions σ β}
    {apply : Operator → Nat → List β → σ → Except Fault β × σ}
    (same : ∀ op n vs s, vs.length = op.arity → apply op n vs s = A.apply op n vs s) (rule : Rule)
    (s : σ) (c : Cursor) : rule.run { A with apply } s c = rule.run A s c := by
  obtain ⟨_, -, state, cursor, alike⟩ :=
    (Simulation.ofApply same).run (w := ()) (s := s) (t := s) rfl rule c
  exact Result.eq_of_alike state cursor alike

end Calculator.Grammar
