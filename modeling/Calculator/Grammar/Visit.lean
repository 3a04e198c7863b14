import Calculator.Grammar.Rules

/-!
# Visits

The rules of the grammar with every call of a rule on record. `Visit.body` is what a rule does apart
from the rules it calls, and `visit` puts the bodies together up to a depth of calls. Nothing in
these definitions tells that the calls come to an end.
-/

namespace Calculator.Grammar

/-- A rule, or the loop of one, with what it has at hand. -/
inductive Routine (β : Type) where
  | statements
  | moreStatements (done : Statements β)
  | expression (level : Level)
  | operand (level : Level)
  | chain (level : Level) (left : β)
  | term
  | parenthesized
  | atom

/-- How far a routine is from the statements. The loops count as looser than every level: what they
do again comes behind a token. -/
def Routine.tightness {β : Type} : Routine β → Nat
  | statements => 0
  | moreStatements _ | chain _ _ => 1
  | expression level => 2 + 2 * level.rank
  | operand level => 3 + 2 * level.rank
  | term => 30
  | parenthesized => 31
  | atom => 32

/-- What reads the second operand of an operator. -/
def Routine.right {β : Type} (op : Operator) (level : Level) : Routine β :=
  match op.associativity with
  | .right => expression level
  | .left => operand level

/-- A routine that is entered in a state at a cursor. -/
structure Visit (σ β : Type) where
  routine : Routine β
  state : σ
  cursor : Cursor

variable {σ β : Type}

/-- The value is that of the last statement. -/
def Result.last (r : Result σ (Statements β)) : Result σ β :=
  r.andThen fun b s d => .ok b.last s d

/-- What the rule ends in. -/
def Visit.run (A : Actions σ β) (a : Visit σ β) : Result σ β :=
  match a.routine with
  | .statements => (Grammar.statements A a.state a.cursor).last
  | .moreStatements done => (Grammar.moreStatements A done a.state a.cursor).last
  | .expression level => Grammar.expression A level a.state a.cursor
  | .operand level => Grammar.operand A level a.state a.cursor
  | .chain level left => Grammar.chain A level left a.state a.cursor
  | .term => Grammar.term A a.state a.cursor
  | .parenthesized => Grammar.parenthesized A a.state a.cursor
  | .atom => Grammar.atom A a.state a.cursor

/-- Keeps the visits so far, latest first, and comes to nothing where calls are nested too deeply. -/
abbrev Recorded (σ β : Type) := StateT (List (Visit σ β)) Option

/-- `Result.andThen` for what keeps a record. -/
def Result.onward (r : Result σ β) (f : β → σ → Cursor → Recorded σ β (Result σ β)) :
    Recorded σ β (Result σ β) :=
  match r.outcome with
  | .ok v => f v r.state r.cursor
  | .error e => pure ⟨.error e, r.state, r.cursor⟩

namespace Visit

/-! ### What a routine does; `enter` stands for the routines that it calls -/

section Bodies

variable (A : Actions σ β) (enter : Visit σ β → Recorded σ β (Result σ β))

def bodyMoreStatements (done : Statements β) (s : σ) (c : Cursor) : Recorded σ β (Result σ β) :=
  if c.atEnd then pure (.ok done.last s c)
  else
    match c.take? .separator with
    | some (_, d) =>
      if d.atEnd then pure (.ok done.last s d)
      else do
        (← enter ⟨.expression .loosest, s, d⟩).onward fun v s e =>
          enter ⟨.moreStatements (done.add v), s, e⟩
    | none => pure (.fail (.unexpectedCharacter c.describeNext) c.offset s c)

def bodyChain (level : Level) (left : β) (s : σ) (c : Cursor) : Recorded σ β (Result σ β) :=
  match c.atLevel? level with
  | none => pure (.ok left s c)
  | some (op, d) =>
    if op.arity = 1 then
      (applyAt A op [left] c.offset s d).onward fun v s e => enter ⟨.chain level v, s, e⟩
    else do
      (← enter ⟨.right op level, s, d⟩).onward fun right s e =>
        (applyAt A op [left, right] c.offset s e).onward fun v s e => enter ⟨.chain level v, s, e⟩

def bodyTerm (s : σ) (c : Cursor) : Recorded σ β (Result σ β) :=
  match c.beforeOperand? with
  | some (op, d) => do
    (← enter ⟨.term, s, d⟩).onward fun v s e => pure (applyAt A op [v] c.offset s e)
  | none => enter ⟨.parenthesized, s, c⟩

def bodyParenthesized (s : σ) (c : Cursor) : Recorded σ β (Result σ β) :=
  match c.take? .openParen with
  | some (_, d) => do
    (← enter ⟨.expression .loosest, s, d⟩).onward fun v s e =>
      match e.take? .closeParen with
      | some (_, f) => pure (.ok v s f)
      | none => pure (.fail (.unclosedParenthesis e.describeNext) e.offset s e)
  | none => enter ⟨.atom, s, c⟩

def body (a : Visit σ β) : Recorded σ β (Result σ β) :=
  match a.routine with
  | .statements => do
    (← enter ⟨.expression .loosest, a.state, a.cursor⟩).onward fun v s d =>
      enter ⟨.moreStatements (.single v), s, d⟩
  | .moreStatements done => bodyMoreStatements enter done a.state a.cursor
  | .expression level => do
    (← enter ⟨.operand level, a.state, a.cursor⟩).onward fun left s d =>
      enter ⟨.chain level left, s, d⟩
  | .operand level =>
    match level.next? with
    | some next => enter ⟨.expression next, a.state, a.cursor⟩
    | none => enter ⟨.term, a.state, a.cursor⟩
  | .chain level left => bodyChain A enter level left a.state a.cursor
  | .term => bodyTerm A enter a.state a.cursor
  | .parenthesized => bodyParenthesized enter a.state a.cursor
  | .atom => pure (atom A a.state a.cursor)

end Bodies

end Visit

/-- A routine with all that it calls, if no more than `depth` of them are under way at once. -/
def visit (A : Actions σ β) : Nat → Visit σ β → Recorded σ β (Result σ β)
  | 0, _ => failure
  | depth + 1, a => do
    modify (a :: ·)
    a.body A (visit A depth)

end Calculator.Grammar
