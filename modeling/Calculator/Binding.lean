import Calculator.Fault

/-!
# Bindings

A `Binding` is a fixed value or refers to a cell of a `Store`. Names, operands and results are
bindings, so that an operand that is a variable is read only when its operator is applied.
-/

namespace Calculator

structure Cell where
  index : Nat
deriving DecidableEq, Repr

structure Store where
  values : Array Float

namespace Store

def empty : Store := ⟨#[]⟩

def allocate (s : Store) (v : Float) : Cell × Store :=
  (⟨s.values.size⟩, ⟨s.values.push v⟩)

/-- A cell that was never allocated reads as zero. -/
def read (s : Store) (c : Cell) : Float :=
  s.values[c.index]?.getD 0.0

def write (s : Store) (c : Cell) (v : Float) : Store :=
  ⟨s.values.setIfInBounds c.index v⟩

/-- The cell has been allocated. -/
def Holds (s : Store) (c : Cell) : Prop :=
  c.index < s.values.size

theorem holds_allocate (s : Store) (v : Float) : (s.allocate v).2.Holds (s.allocate v).1 := by
  simp [Holds, allocate]

theorem Holds.allocate {s : Store} {c : Cell} (h : s.Holds c) (v : Float) :
    (s.allocate v).2.Holds c := by
  simp only [Holds, Store.allocate, Array.size_push] at h ⊢
  omega

theorem holds_write {s : Store} {c d : Cell} {v : Float} : (s.write c v).Holds d ↔ s.Holds d := by
  simp [Holds, write]

theorem read_allocate (s : Store) (v : Float) : (s.allocate v).2.read (s.allocate v).1 = v := by
  simp [read, allocate]

theorem Holds.read_allocate {s : Store} {c : Cell} (h : s.Holds c) (v : Float) :
    (s.allocate v).2.read c = s.read c := by
  have inside : c.index < s.values.size := h
  have other : c.index ≠ s.values.size := Nat.ne_of_lt inside
  simp [read, Store.allocate, Array.getElem?_push, other]

theorem Holds.read_write {s : Store} {c : Cell} (h : s.Holds c) (v : Float) :
    (s.write c v).read c = v := by
  have inside : c.index < s.values.size := h
  simp [read, write, inside]

theorem read_write_of_ne {s : Store} {c d : Cell} (h : c ≠ d) (v : Float) :
    (s.write c v).read d = s.read d := by
  have other : c.index ≠ d.index := fun same => h (congrArg Cell.mk same)
  simp [read, write, other]

end Store

inductive Binding where
  | fixed (value : Float)
  | cell (place : Cell)
deriving DecidableEq

namespace Binding

def read (s : Store) : Binding → Float
  | fixed v => v
  | cell c => s.read c

def isVariable : Binding → Bool
  | fixed _ => false
  | cell _ => true

/-- Writes to a cell; `operator` names the write in the fault of a fixed binding. -/
def write (b : Binding) (v : Float) (operator : Text) (s : Store) : Except Fault Store :=
  match b with
  | fixed _ => .error (.immutableBinding operator)
  | cell c => .ok (s.write c v)

def sameCell : Binding → Binding → Bool
  | cell c, cell d => c = d
  | _, _ => false

end Binding

end Calculator
