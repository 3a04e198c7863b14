import Calculator.Session

/-!
# Calls

What can be asked of a session, and the session after a number of calls.
-/

namespace Calculator.Session

inductive Call where
  | evaluate (source : Text)
  | set (name : Text) (v : Float)
  | get (name : Text)

/-- The session after a call, also after one that fails. -/
def perform (s : Session) : Call → Session
  | .evaluate source => (s.evaluate source).2
  | .set name v => (s.set name v).2
  | .get _ => s

def after (s : Session) (calls : List Call) : Session :=
  calls.foldl perform s

end Calculator.Session
