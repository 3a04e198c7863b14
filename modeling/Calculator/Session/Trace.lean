import Calculator.Grammar.Derivation
import Calculator.Grammar.Log
import Calculator.Session

/-!
# Traces

What an evaluation does, apart from the values it computes: the tokens it passes, the names it
looks up and the operators it applies.
-/

namespace Calculator.Session

/-- The rule in a session, with a log of what it looks up and applies. -/
def follow (s : Session) (rule : Grammar.Rule) (c : Cursor) :
    Grammar.Result (Session × List Grammar.Event) Binding :=
  rule.run actions.logged (s, []) c

/-- What an evaluation looks up and applies, latest first. -/
def events (s : Session) (source : Text) : List Grammar.Event :=
  (s.follow .statements (.start source)).state.2

/-- Where an evaluation ends or fails. -/
def stop (s : Session) (source : Text) : Cursor :=
  (Grammar.statements actions s (.start source)).cursor

/-- The tokens that an evaluation passes before it ends or fails, latest first. -/
def tokens (s : Session) (source : Text) : List Lexeme :=
  (Grammar.statements actions s (.start source)).cursor.passed

/-- The names among the tokens. -/
def names (s : Session) (source : Text) : List Text :=
  Grammar.namesOf (s.tokens source)

/-- No token that an evaluation passes is an assignment or an update. -/
def WriteFree (s : Session) (source : Text) : Prop :=
  ∀ l ∈ s.tokens source, ∀ op, Grammar.writes op → l.text ≠ op.symbol

end Calculator.Session
