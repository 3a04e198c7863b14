import Calculator.Binding
import Calculator.Number.Binary64

/-!
# Environments

An `Environment` binds names. It starts with six constants, and `Environment.lookup` declares
every other name as a variable that holds zero.
-/

namespace Calculator

structure Environment where
  /-- Latest first. -/
  entries : List (Text × Binding)

namespace Environment

def pi : Float :=
  Float.ofBits 0x400921FB54442D18

def constants : List (Text × Float) :=
  [(['t', 'r', 'u', 'e'], 1.0), (['f', 'a', 'l', 's', 'e'], 0.0),
    (['I', 'n', 'f', 'i', 'n', 'i', 't', 'y'], Binary64.infinity),
    (['i', 'n', 'f', 'i', 'n', 'i', 't', 'y'], Binary64.infinity),
    (['P', 'I'], pi), (['p', 'i'], pi)]

def isConstant (name : Text) : Bool :=
  constants.any (·.1 = name)

def initial : Environment :=
  ⟨constants.map fun (name, v) => (name, .fixed v)⟩

def find? (e : Environment) (name : Text) : Option Binding :=
  e.entries.lookup name

/-- The binding of a name; a new name gets a new cell that holds zero. -/
def lookup (e : Environment) (name : Text) (s : Store) : Binding × Environment × Store :=
  match e.find? name with
  | some b => (b, e, s)
  | none =>
    let (cell, s) := s.allocate 0.0
    (.cell cell, ⟨(name, .cell cell) :: e.entries⟩, s)

theorem lookup_of_some {e : Environment} {name : Text} {b : Binding} (h : e.find? name = some b)
    (s : Store) : e.lookup name s = (b, e, s) := by
  rw [lookup, h]

theorem lookup_of_none {e : Environment} {name : Text} (h : e.find? name = none) (s : Store) :
    e.lookup name s = (.cell (s.allocate 0.0).1, ⟨(name, .cell (s.allocate 0.0).1) :: e.entries⟩,
      (s.allocate 0.0).2) := by
  rw [lookup, h]

theorem find?_cons (e : Environment) (name m : Text) (b : Binding) :
    find? ⟨(name, b) :: e.entries⟩ m = if m = name then some b else e.find? m := by
  rw [find?, List.lookup_cons]
  by_cases h : m = name
  · simp [h]
  · simp [h, find?, beq_eq_false_iff_ne.mpr h]

def size (e : Environment) : Nat :=
  e.entries.length

end Environment

end Calculator
