import Calculator.Environment

/-!
# Handles

Bindings that an environment hands out, that are made apart from it or cloned, and that are read and
written in any order. `Handles.after` does this with cells. `origins` and `value` tell where each
binding comes from and what was last written there, and know nothing of cells.
-/

namespace Calculator

/-- The bindings that have been handed out are counted from `0` on. -/
inductive Handling where
  | lookup (name : Text)
  | fixed (v : Float)
  /-- A new variable with a value. -/
  | create (v : Float)
  | clone (i : Nat)
  | read (i : Nat)
  | write (i : Nat) (v : Float) (operator : Text)

structure Handles where
  environment : Environment
  store : Store
  /-- First one first. -/
  bindings : List Binding

namespace Handles

def start (store : Store) : Handles :=
  ⟨.initial, store, []⟩

/-- Nothing is done with a binding that there is not. -/
def perform (t : Handles) : Handling → Handles
  | .lookup name =>
    let (b, environment, store) := t.environment.lookup name t.store
    ⟨environment, store, t.bindings ++ [b]⟩
  | .fixed v => { t with bindings := t.bindings ++ [.fixed v] }
  | .create v =>
    let (cell, store) := t.store.allocate v
    { t with store, bindings := t.bindings ++ [.cell cell] }
  | .clone i => { t with bindings := t.bindings ++ t.bindings[i]?.toList }
  | .read _ => t
  | .write i v operator =>
    match t.bindings[i]? with
    | some b =>
      match b.write v operator t.store with
      | .ok store => { t with store }
      | .error _ => t
    | none => t

/-- What comes of a history, which is given latest first. -/
def after (store : Store) : List Handling → Handles
  | [] => start store
  | step :: earlier => (after store earlier).perform step

end Handles

/-! ### Where bindings come from; a history is given latest first -/

/-- What makes a variable. -/
inductive Source where
  /-- The creation that handed out this binding. -/
  | created (i : Nat)
  | named (name : Text)
deriving DecidableEq

inductive Origin where
  | fixed (v : Float)
  | shared (source : Source)
deriving DecidableEq

namespace Handling

def originOf (name : Text) : Origin :=
  match Environment.constants.lookup name with
  | some v => .fixed v
  | none => .shared (.named name)

/-- The origin of each binding. -/
def origins : List Handling → List Origin
  | [] => []
  | .lookup name :: earlier => origins earlier ++ [originOf name]
  | .fixed v :: earlier => origins earlier ++ [.fixed v]
  | .create _ :: earlier => origins earlier ++ [.shared (.created (origins earlier).length)]
  | .clone i :: earlier => origins earlier ++ (origins earlier)[i]?.toList
  | .read _ :: earlier => origins earlier
  | .write .. :: earlier => origins earlier

/-- What was last written through a binding of this source, or else what the source began with. -/
def value (source : Source) : List Handling → Float
  | [] => 0.0
  | .create v :: earlier =>
    if source = .created (origins earlier).length then v else value source earlier
  | .write i v _ :: earlier =>
    if (origins earlier)[i]? = some (.shared source) then v else value source earlier
  | _ :: earlier => value source earlier

/-- The names that have been looked up and are no constants, each as often as it was. -/
def declared : List Handling → List Text
  | [] => []
  | .lookup name :: earlier =>
    match Environment.constants.lookup name with
    | some _ => declared earlier
    | none => name :: declared earlier
  | _ :: earlier => declared earlier

end Handling

end Calculator
