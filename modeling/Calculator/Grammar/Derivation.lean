import Calculator.Environment
import Calculator.Token.Language

/-!
# The grammar as a relation

`Derives p assignable s t` says that the text `s` begins with a phrase of kind `p` behind which
`t` is left, and tells whether the phrase is assignable: whether its value is a variable, which an
assignment or an update may write. The relation is stated without reference to an evaluation or a
cursor.
-/

namespace Calculator.Grammar

inductive Phrase where
  | expression (level : Level)
  /-- An atom with any number of operators before it. -/
  | term
  | atom
deriving DecidableEq, Repr

def Phrase.operand (level : Level) : Phrase :=
  match level.next? with
  | some next => expression next
  | none => term

/-- `s` begins with `token`, the longest of its kind, and `t` is what follows the blanks behind
it. -/
structure Passes (kind : TokenKind) (token s t : Text) : Prop where
  isLongest : kind.IsLongest s token
  rest : t = Text.dropBlank (s.drop token.length)

def writes (op : Operator) : Bool :=
  op.level? = some .assignment ||
    op = .preIncrement || op = .preDecrement || op = .postIncrement || op = .postDecrement

inductive Derives : Phrase → Bool → Text → Text → Prop
  | operand {l : Level} {a : Bool} {s t : Text} :
    Derives (.operand l) a s t → Derives (.expression l) a s t
  /-- Behind a phrase of its own level; the comma passes its right side on. -/
  | leftGrouping {op : Operator} {l : Level} {a b : Bool} {s t u v : Text} :
    op.level? = some l → op.arity = 2 → op.associativity = .left →
    Derives (.expression l) a s t → Passes .operator op.symbol t u → Derives (.operand l) b u v →
    Derives (.expression l) (decide (op = .comma) && b) s v
  /-- Before a phrase of its own level; an assignment passes its left side on. -/
  | rightGrouping {op : Operator} {l : Level} {a b : Bool} {s t u v : Text} :
    op.level? = some l → op.arity = 2 → op.associativity = .right →
    Derives (.operand l) a s t → Passes .operator op.symbol t u → Derives (.expression l) b u v →
    (writes op → a) → Derives (.expression l) (writes op) s v
  | behind {op : Operator} {l : Level} {a : Bool} {s t u : Text} :
    op.level? = some l → op.arity = 1 →
    Derives (.expression l) a s t → Passes .operator op.symbol t u →
    Derives (.expression l) false s u
  | before {op : Operator} {a : Bool} {s t u : Text} :
    op.placement = .beforeOperand →
    Passes .beforeOperand op.symbol s t → Derives .term a t u →
    (writes op → a) → Derives .term (writes op) s u
  | atom {a : Bool} {s t : Text} : Derives .atom a s t → Derives .term a s t
  | parentheses {a : Bool} {s t u v : Text} :
    Passes .openParen ['('] s t → Derives (.expression .loosest) a t u →
    Passes .closeParen [')'] u v → Derives .atom a s v
  | number {m s t : Text} : Passes .number m s t → Derives .atom false s t
  | name {m s t : Text} : Passes .name m s t → Derives .atom (!Environment.isConstant m) s t
  /-- A name that is not a constant with one update behind it. -/
  | updated {op : Operator} {m s t u : Text} :
    Passes .name m s t → !Environment.isConstant m → op.placement = .afterVariable →
    Passes .afterVariable op.symbol t u → Derives .atom false s u

/-- Expressions with separators between them and perhaps behind the last, up to the end of the
text. -/
inductive DerivesAll : Text → Prop
  | last {a : Bool} {s : Text} : Derives (.expression .loosest) a s [] → DerivesAll s
  | ended {a : Bool} {m s t : Text} :
    Derives (.expression .loosest) a s t → Passes .separator m t [] → DerivesAll s
  | more {a : Bool} {m s t u : Text} :
    Derives (.expression .loosest) a s t → Passes .separator m t u → DerivesAll u → DerivesAll s

/-- The texts of the language, blanks before the first token included. -/
def Accepts (source : Text) : Prop :=
  DerivesAll (Text.dropBlank source)

end Calculator.Grammar
