import Calculator.Session

/-!
# Reachable sessions

The sessions that evaluations and assignments lead to, failed ones included.
-/

namespace Calculator.Session

inductive Reachable : Session → Prop
  | initial : Reachable .initial
  | evaluate {s : Session} (source : Text) : Reachable s → Reachable (s.evaluate source).2
  | set {s : Session} (name : Text) (v : Float) : Reachable s → Reachable (s.set name v).2

end Calculator.Session
