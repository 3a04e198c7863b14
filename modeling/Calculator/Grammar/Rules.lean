import Calculator.Grammar.Actions

/-!
# Rules

The grammar by levels. An expression of a level is an operand followed by a chain of operators of
that level; the operand is an expression of the next level, and behind the tightest level a term
with operators before it. Statements are expressions with separators between them.

Every rule ends at a cursor that is not behind its own, which is why the rules terminate: a call
for the same cursor goes to a tighter rule, and all others stand behind a token that has been
passed. The rules are therefore first defined with that bound in `Bounded`. `expression`, `chain`
and the others below are the same rules without it, each with its defining equation
(`expression_eq`, `chain_eq`, …).
-/

namespace Calculator.Grammar

variable {σ β : Type}

structure Statements (β : Type) where
  /-- Latest first. -/
  earlier : List β
  last : β

def Statements.single (v : β) : Statements β :=
  ⟨[], v⟩

def Statements.add (b : Statements β) (v : β) : Statements β :=
  ⟨b.last :: b.earlier, v⟩

namespace Bounded

def applyAt (A : Actions σ β) (op : Operator) (operands : List β) (offset : Nat) (s : σ)
    (c : Cursor) : Reached σ β c :=
  match A.apply op offset operands s with
  | (.ok v, s) => .ok v s c
  | (.error fault, s) => .fail fault offset s c

def updated (A : Actions σ β) (v : β) (s : σ) (c : Cursor) : Reached σ β c :=
  match h : c.afterVariable? with
  | some (op, d) =>
    (applyAt A op [v] c.offset s d).since (Nat.le_of_lt (Cursor.remaining_afterVariable? h))
  | none => .ok v s c

def atom (A : Actions σ β) (s : σ) (c : Cursor) : Reached σ β c :=
  match h : c.take? .number with
  | some (t, d) =>
    Reached.since (Nat.le_of_lt (Cursor.remaining_take? h))
      (match A.number t with
      | some v => .ok v s d
      | none => .fail (.invalidNumber t) c.offset s d)
  | none =>
    match h : c.take? .name with
    | some (t, d) =>
      Reached.since (Nat.le_of_lt (Cursor.remaining_take? h))
        (match A.name t s with
        | (v, s) => if A.isVariable v then updated A v s d else .ok v s d)
    | none => .fail (.expectedOperand c.describeNext) c.offset s c

mutual

def expression (A : Actions σ β) (level : Level) (s : σ) (c : Cursor) : Reached σ β c :=
  (operand A level s c).andThen fun left s d _ => chain A level left s d
termination_by (c.remaining, 4 + 2 * (13 - level.rank))
decreasing_by
  · exact Prod.Lex.right _ (by omega)
  · exact Prod.Lex.right' _ ‹_› (by omega)

def operand (A : Actions σ β) (level : Level) (s : σ) (c : Cursor) : Reached σ β c :=
  match _h : level.next? with
  | some next => expression A next s c
  | none => term A s c
termination_by (c.remaining, 3 + 2 * (13 - level.rank))
decreasing_by
  · have := Level.rank_next? _h
    have := next.rank_le
    exact Prod.Lex.right _ (by omega)
  · exact Prod.Lex.right _ (by omega)

def chain (A : Actions σ β) (level : Level) (left : β) (s : σ) (c : Cursor) : Reached σ β c :=
  match h : c.atLevel? level with
  | none => .ok left s c
  | some (op, d) =>
    Reached.since (Nat.le_of_lt (Cursor.remaining_atLevel? h))
      ((if op.arity = 1 then applyAt A op [left] c.offset s d
        else
          (match op.associativity with
          | .right => expression A level s d
          | .left => operand A level s d).andThen
            fun right s e _ => applyAt A op [left, right] c.offset s e).andThen
        fun v s e _ => chain A level v s e)
termination_by (c.remaining, 0)
decreasing_by
  all_goals
    have := Cursor.remaining_atLevel? h
    exact Prod.Lex.left _ _ (by omega)

def term (A : Actions σ β) (s : σ) (c : Cursor) : Reached σ β c :=
  match h : c.beforeOperand? with
  | some (op, d) =>
    Reached.since (Nat.le_of_lt (Cursor.remaining_beforeOperand? h))
      ((term A s d).andThen fun v s e _ => applyAt A op [v] c.offset s e)
  | none => parenthesized A s c
termination_by (c.remaining, 2)
decreasing_by
  · exact Prod.Lex.left _ _ (Cursor.remaining_beforeOperand? h)
  · exact Prod.Lex.right _ (by omega)

def parenthesized (A : Actions σ β) (s : σ) (c : Cursor) : Reached σ β c :=
  match h : c.take? .openParen with
  | some (_, d) =>
    Reached.since (Nat.le_of_lt (Cursor.remaining_take? h))
      ((expression A .loosest s d).andThen fun v s e _ =>
        match h : e.take? .closeParen with
        | some (_, f) => Reached.since (Nat.le_of_lt (Cursor.remaining_take? h)) (.ok v s f)
        | none => .fail (.unclosedParenthesis e.describeNext) e.offset s e)
  | none => atom A s c
termination_by (c.remaining, 1)
decreasing_by
  exact Prod.Lex.left _ _ (Cursor.remaining_take? h)

end

def moreStatements (A : Actions σ β) (done : Statements β) (s : σ) (c : Cursor) :
    Reached σ (Statements β) c :=
  if c.atEnd then .ok done s c
  else
    match h : c.take? .separator with
    | some (_, d) =>
      Reached.since (Nat.le_of_lt (Cursor.remaining_take? h))
        (if d.atEnd then .ok done s d
        else (expression A .loosest s d).andThen fun v s e _ => moreStatements A (done.add v) s e)
    | none => .fail (.unexpectedCharacter c.describeNext) c.offset s c
termination_by c.remaining
decreasing_by
  have := Cursor.remaining_take? h
  omega

end Bounded

/-! ### The rules without their bound -/

def applyAt (A : Actions σ β) (op : Operator) (operands : List β) (offset : Nat) (s : σ)
    (c : Cursor) : Result σ β :=
  (Bounded.applyAt A op operands offset s c).val

def updated (A : Actions σ β) (v : β) (s : σ) (c : Cursor) : Result σ β :=
  (Bounded.updated A v s c).val

/-- A numeral, or a name with at most one update behind it. -/
def atom (A : Actions σ β) (s : σ) (c : Cursor) : Result σ β :=
  (Bounded.atom A s c).val

def expression (A : Actions σ β) (level : Level) (s : σ) (c : Cursor) : Result σ β :=
  (Bounded.expression A level s c).val

def operand (A : Actions σ β) (level : Level) (s : σ) (c : Cursor) : Result σ β :=
  (Bounded.operand A level s c).val

/-- The operators of a level behind their first operand, as far as they go. -/
def chain (A : Actions σ β) (level : Level) (left : β) (s : σ) (c : Cursor) : Result σ β :=
  (Bounded.chain A level left s c).val

/-- A parenthesized expression or an atom, with any number of operators before it. -/
def term (A : Actions σ β) (s : σ) (c : Cursor) : Result σ β :=
  (Bounded.term A s c).val

def parenthesized (A : Actions σ β) (s : σ) (c : Cursor) : Result σ β :=
  (Bounded.parenthesized A s c).val

/-- The statements behind those that are done, up to the end of the text. -/
def moreStatements (A : Actions σ β) (done : Statements β) (s : σ) (c : Cursor) :
    Result σ (Statements β) :=
  (Bounded.moreStatements A done s c).val

/-- One or more expressions with separators between them, and perhaps a last separator. -/
def statements (A : Actions σ β) (s : σ) (c : Cursor) : Result σ (Statements β) :=
  (expression A .loosest s c).andThen fun v s d => moreStatements A (.single v) s d

/-- A rule by its name. -/
inductive Rule where
  | expression (level : Level)
  | term
  | parenthesized
  | atom
  /-- The value is that of the last statement. -/
  | statements
deriving DecidableEq, Repr

def Rule.run (A : Actions σ β) (s : σ) (c : Cursor) : Rule → Result σ β
  | expression level => Grammar.expression A level s c
  | term => Grammar.term A s c
  | parenthesized => Grammar.parenthesized A s c
  | atom => Grammar.atom A s c
  | statements => (Grammar.statements A s c).andThen fun b s d => .ok b.last s d

variable (A : Actions σ β)

theorem applyAt_eq (op : Operator) (operands : List β) (offset : Nat) (s : σ) (c : Cursor) :
    applyAt A op operands offset s c =
      match A.apply op offset operands s with
      | (.ok v, s) => .ok v s c
      | (.error fault, s) => .fail fault offset s c := by
  unfold applyAt Bounded.applyAt
  split <;> rfl

theorem updated_eq (v : β) (s : σ) (c : Cursor) :
    updated A v s c =
      match c.afterVariable? with
      | some (op, d) => applyAt A op [v] c.offset s d
      | none => .ok v s c := by
  unfold updated Bounded.updated
  split <;> simp_all [applyAt]

theorem atom_eq (s : σ) (c : Cursor) :
    atom A s c =
      match c.take? .number with
      | some (t, d) =>
        match A.number t with
        | some v => .ok v s d
        | none => .fail (.invalidNumber t) c.offset s d
      | none =>
        match c.take? .name with
        | some (t, d) =>
          match A.name t s with
          | (v, s) => if A.isVariable v then updated A v s d else .ok v s d
        | none => .fail (.expectedOperand c.describeNext) c.offset s c := by
  unfold atom Bounded.atom
  split
  case h_1 t d h =>
    simp only [h, Reached.val_since]
    split <;> simp_all
  case h_2 h =>
    simp only [h]
    split
    case h_1 t d h => simp only [h, Reached.val_since, updated]; split <;> rfl
    case h_2 h => simp only [h, Reached.val_fail]

theorem expression_eq (level : Level) (s : σ) (c : Cursor) :
    expression A level s c =
      (operand A level s c).andThen fun left s d => chain A level left s d := by
  rw [expression, Bounded.expression]
  exact Reached.val_andThen _ _ _ fun _ _ _ _ => rfl

theorem operand_eq (level : Level) (s : σ) (c : Cursor) :
    operand A level s c =
      match level.next? with
      | some next => expression A next s c
      | none => term A s c := by
  rw [operand, Bounded.operand]
  split <;> simp_all [expression, term]

theorem chain_eq (level : Level) (left : β) (s : σ) (c : Cursor) :
    chain A level left s c =
      match c.atLevel? level with
      | none => .ok left s c
      | some (op, d) =>
        (if op.arity = 1 then applyAt A op [left] c.offset s d
        else
          (match op.associativity with
          | .right => expression A level s d
          | .left => operand A level s d).andThen
            fun right s e => applyAt A op [left, right] c.offset s e).andThen
        fun v s e => chain A level v s e := by
  rw [chain, Bounded.chain]
  split
  case h_1 h => simp only [h, Reached.val_ok]
  case h_2 op d h =>
    simp only [h, Reached.val_since]
    rw [Reached.val_andThen _ _ (fun v s e => chain A level v s e) fun _ _ _ _ => rfl]
    congr 1
    split
    · rfl
    · rw [Reached.val_andThen _ _ (fun right s e => applyAt A op [left, right] c.offset s e)
        fun _ _ _ _ => rfl]
      congr 1
      split <;> rfl

theorem term_eq (s : σ) (c : Cursor) :
    term A s c =
      match c.beforeOperand? with
      | some (op, d) => (term A s d).andThen fun v s e => applyAt A op [v] c.offset s e
      | none => parenthesized A s c := by
  rw [term, Bounded.term]
  split
  case h_1 op d h =>
    simp only [h, Reached.val_since]
    exact Reached.val_andThen _ _ _ fun _ _ _ _ => rfl
  case h_2 h => simp only [h, parenthesized]

theorem parenthesized_eq (s : σ) (c : Cursor) :
    parenthesized A s c =
      match c.take? .openParen with
      | some (_, d) =>
        (expression A .loosest s d).andThen fun v s e =>
          match e.take? .closeParen with
          | some (_, f) => .ok v s f
          | none => .fail (.unclosedParenthesis e.describeNext) e.offset s e
      | none => atom A s c := by
  rw [parenthesized, Bounded.parenthesized]
  split
  case h_1 t d h =>
    simp only [h, Reached.val_since]
    refine Reached.val_andThen _ _ _ fun v s e _ => ?_
    split <;> simp_all
  case h_2 h => simp only [h, atom]

theorem moreStatements_eq (done : Statements β) (s : σ) (c : Cursor) :
    moreStatements A done s c =
      if c.atEnd then .ok done s c
      else
        match c.take? .separator with
        | some (_, d) =>
          if d.atEnd then .ok done s d
          else (expression A .loosest s d).andThen fun v s e => moreStatements A (done.add v) s e
        | none => .fail (.unexpectedCharacter c.describeNext) c.offset s c := by
  rw [moreStatements, Bounded.moreStatements]
  split
  · rfl
  split
  case h_1 t d h =>
    simp only [h, Reached.val_since]
    split
    · rfl
    · exact Reached.val_andThen _ _ _ fun _ _ _ _ => rfl
  case h_2 h => simp only [h, Reached.val_fail]

end Calculator.Grammar
