import Calculator.Proofs.Operator.Effect
import Calculator.Proofs.Session.Names
import Calculator.Session.Call

/-!
# Every variable has a cell of its own

Whatever is evaluated, assigned and read in a session, and whatever of it fails, the constants keep
their values, every variable keeps its cell and no two variables share one
(`Session.environment_invariant`).
-/

namespace Calculator

namespace Session

/-- The constants have their values, and the variables have cells of their own. -/
structure Placed (s : Session) : Prop where
  constant : ∀ {name v}, (name, v) ∈ Environment.constants →
    s.environment.find? name = some (.fixed v)
  holds : ∀ {name c}, s.environment.find? name = some (.cell c) → s.memory.store.Holds c
  apart : ∀ {m n c}, s.environment.find? m = some (.cell c) →
    s.environment.find? n = some (.cell c) → m = n

/-- Every name that is bound in `s` is bound to the same in `t`. -/
def Extends (s t : Session) : Prop :=
  ∀ name b, s.environment.find? name = some b → t.environment.find? name = some b

theorem Extends.refl (s : Session) : s.Extends s := fun _ _ h => h

theorem Extends.trans {s t u : Session} (h : s.Extends t) (h' : t.Extends u) : s.Extends u :=
  fun name b hb => h' name b (h name b hb)

/-! ### Looking up a name -/

variable {s : Session} {name : Text}

theorem lookup_of_some {b : Binding} (h : s.environment.find? name = some b) :
    s.lookup name = (b, s) := by
  rw [lookup, Environment.lookup_of_some h]

/-- A new name is bound to a new cell. -/
theorem lookup_of_none (h : s.environment.find? name = none) :
    s.lookup name = (.cell (s.memory.store.allocate 0.0).1,
      ⟨⟨(name, .cell (s.memory.store.allocate 0.0).1) :: s.environment.entries⟩,
        { s.memory with store := (s.memory.store.allocate 0.0).2 }⟩) := by
  rw [lookup, Environment.lookup_of_none h]

theorem find?_lookup (s : Session) (name m : Text) : (s.lookup name).2.environment.find? m =
    if m = name then some (s.lookup name).1 else s.environment.find? m := by
  cases h : s.environment.find? name with
  | some b =>
    rw [lookup_of_some h]
    split
    case isTrue same => exact same ▸ h
    case isFalse => rfl
  | none =>
    rw [lookup_of_none h]
    exact Environment.find?_cons s.environment name m _

theorem extends_lookup (s : Session) (name : Text) : s.Extends (s.lookup name).2 := by
  intro m b hb
  rw [find?_lookup]
  split
  case isTrue same => rw [same] at hb; rw [lookup_of_some hb]
  case isFalse => exact hb

/-- A cell that holds a variable is not new. -/
theorem Placed.ne_allocated (h : s.Placed) {c : Cell} {m : Text}
    (hm : s.environment.find? m = some (.cell c)) : c ≠ (s.memory.store.allocate 0.0).1 := by
  rintro rfl
  exact Nat.lt_irrefl _ (h.holds hm)

theorem Placed.lookup (h : s.Placed) (name : Text) : (s.lookup name).2.Placed := by
  cases hn : s.environment.find? name with
  | some b =>
    rw [lookup_of_some hn]
    exact h
  | none =>
    have found (m : Text) := find?_lookup s name m
    rw [lookup_of_none hn] at found ⊢
    refine ⟨fun {m v} hm => ?_, fun {m c} hm => ?_, fun {m n c} hm hn' => ?_⟩
    · have declared := h.constant hm
      have other : m ≠ name := by
        rintro rfl
        rw [hn] at declared
        cases declared
      rw [found, if_neg other]
      exact declared
    · rw [found] at hm
      split at hm
      · cases hm
        exact Store.holds_allocate _ _
      · exact (h.holds hm).allocate 0.0
    · rw [found] at hm hn'
      split at hm <;> split at hn'
      case isTrue.isTrue left right => rw [left, right]
      case isTrue.isFalse => cases hm; exact absurd rfl (h.ne_allocated hn')
      case isFalse.isTrue => cases hn'; exact absurd rfl (h.ne_allocated hm)
      case isFalse.isFalse => exact h.apart hm hn'

/-! ### Writing to a cell -/

theorem Placed.of_store {m : Memory} (h : s.Placed)
    (same : ∀ c, m.store.Holds c ↔ s.memory.store.Holds c) : Placed { s with memory := m } where
  constant := h.constant
  holds hc := (same _).mpr (h.holds hc)
  apart := h.apart

theorem Placed.apply {op : Operator} {operands : List Binding} (h : s.Placed)
    (hl : operands.length = op.arity) : (s.apply op operands).2.Placed := by
  unfold Session.apply
  by_cases hp : op.Permits (operands.map Binding.isVariable)
  · obtain ⟨e, b, does⟩ := Operator.apply_eq_effect hl hp s.memory
    rw [does.apply]
    exact h.of_store fun c => Effect.holds_store
  · rw [Operator.apply_of_not_permits hl hp]
    exact h

/-! ### Whole calls -/

theorem Placed.evaluate (h : s.Placed) (source : Text) :
    (s.evaluate source).2.Placed ∧ s.Extends (s.evaluate source).2 :=
  evaluate_invariant (I := fun t => t.Placed ∧ s.Extends t)
    (fun m ht => ⟨ht.1.lookup m, ht.2.trans (extends_lookup _ m)⟩)
    (fun hl ht => ⟨ht.1.apply hl, ht.2⟩) ⟨h, .refl s⟩ source

theorem set_of_fixed {x : Float} (h : s.environment.find? name = some (.fixed x)) (v : Float) :
    s.set name v = (.error ⟨.immutableBinding Operator.assign.symbol, 0⟩, s) := by
  rw [set, lookup_of_some h]
  rfl

/-- Assigning to a variable is looking it up and writing to its cell. -/
theorem set_of_cell {c : Cell} (h : (s.lookup name).1 = .cell c) (v : Float) :
    s.set name v = (.ok (), ⟨(s.lookup name).2.environment,
      { (s.lookup name).2.memory with store := (s.lookup name).2.memory.store.write c v }⟩) := by
  unfold set
  generalize s.lookup name = r at h ⊢
  obtain ⟨b, t⟩ := r
  obtain rfl : b = .cell c := h
  rfl

theorem exists_cell {b : Binding} (h : b.isVariable) : ∃ c, b = .cell c := by
  cases b with
  | fixed v => cases h
  | cell c => exact ⟨c, rfl⟩

theorem exists_constant (h : Environment.isConstant name) :
    ∃ v, (name, v) ∈ Environment.constants := by
  obtain ⟨⟨n, v⟩, hp, hn⟩ := List.any_eq_true.mp h
  obtain rfl : n = name := of_decide_eq_true hn
  exact ⟨v, hp⟩

theorem lookup_constant (placed : s.Placed) (h : Environment.isConstant name) :
    ∃ v, (name, v) ∈ Environment.constants ∧ s.environment.find? name = some (.fixed v) ∧
      s.lookup name = (.fixed v, s) := by
  obtain ⟨v, hv⟩ := exists_constant h
  exact ⟨v, hv, placed.constant hv, lookup_of_some (placed.constant hv)⟩

theorem lookup_variable (sound : s.Sound) (h : ¬ Environment.isConstant name) :
    ∃ c, (s.lookup name).1 = .cell c ∧
      (s.lookup name).2.environment.find? name = some (.cell c) := by
  obtain ⟨c, hb⟩ := exists_cell ((sound.lookup name).1.trans (by simp [h]))
  exact ⟨c, hb, by rw [find?_lookup, if_pos rfl, hb]⟩

theorem set_constant (placed : s.Placed) (h : Environment.isConstant name) (v : Float) :
    s.set name v = (.error ⟨.immutableBinding Operator.assign.symbol, 0⟩, s) := by
  obtain ⟨x, -, bound, -⟩ := lookup_constant placed h
  exact set_of_fixed bound v

theorem Placed.set (h : s.Placed) (sound : s.Sound) (name : Text) (v : Float) :
    (s.set name v).2.Placed ∧ s.Extends (s.set name v).2 := by
  by_cases hc : Environment.isConstant name
  · rw [set_constant h hc]
    exact ⟨h, .refl s⟩
  · obtain ⟨c, hb, -⟩ := lookup_variable sound hc
    rw [set_of_cell hb]
    exact ⟨(h.lookup name).of_store fun d => Store.holds_write, extends_lookup s name⟩

theorem find?_initial_ne_cell (name : Text) (c : Cell) :
    Environment.initial.find? name ≠ some (.cell c) := by
  rw [Environment.find?, Environment.initial, Environment.lookup_fixed]
  intro h
  obtain ⟨p, -, hp⟩ := Option.map_eq_some_iff.mp h
  cases hp

theorem placed_initial : initial.Placed where
  constant {name v} h := by
    have found : ∀ p ∈ Environment.constants, Environment.constants.find? (·.1 = p.1) = some p := by
      decide
    show Environment.initial.find? name = _
    rw [Environment.find?, Environment.initial, Environment.lookup_fixed, found (name, v) h]
    rfl
  holds h := absurd h (find?_initial_ne_cell _ _)
  apart h _ := absurd h (find?_initial_ne_cell _ _)

theorem Reachable.placed (h : s.Reachable) : s.Placed := by
  induction h with
  | initial => exact placed_initial
  | evaluate source _ ih => exact (ih.evaluate source).1
  | set name v reached ih => exact (ih.set reached.sound name v).1

/-! ### Any number of calls -/

theorem Reachable.perform (h : s.Reachable) (call : Call) : (s.perform call).Reachable := by
  cases call with
  | evaluate source => exact h.evaluate source
  | set name v => exact h.set name v
  | get name => exact h

theorem Reachable.after (h : s.Reachable) (calls : List Call) : (s.after calls).Reachable := by
  induction calls generalizing s with
  | nil => exact h
  | cons call rest ih => exact ih (h.perform call)

theorem extends_perform (h : s.Reachable) (call : Call) : s.Extends (s.perform call) := by
  cases call with
  | evaluate source => exact (h.placed.evaluate source).2
  | set name v => exact (h.placed.set h.sound name v).2
  | get name => exact .refl s

theorem extends_after (h : s.Reachable) (calls : List Call) : s.Extends (s.after calls) := by
  induction calls generalizing s with
  | nil => exact .refl s
  | cons call rest ih => exact (extends_perform h call).trans (ih (h.perform call))

/-! ### Assigning to one name -/

theorem get?_eq (s : Session) (name : Text) :
    s.get? name = (s.environment.find? name).map s.read := rfl

/-- A new variable is read as zero, and nothing else changes by looking up. -/
theorem get?_lookup (placed : s.Placed) (name m : Text) : (s.lookup name).2.get? m =
    if m = name then some ((s.get? name).getD 0.0) else s.get? m := by
  rw [get?_eq, find?_lookup]
  cases hn : s.environment.find? name with
  | some b =>
    rw [lookup_of_some hn, get?_eq, hn]
    split <;> rfl
  | none =>
    rw [lookup_of_none hn, get?_eq, hn]
    split
    · exact congrArg some (Store.read_allocate _ _)
    · rw [get?_eq]
      cases hm : s.environment.find? m with
      | none => rfl
      | some b =>
        cases b with
        | fixed x => rfl
        | cell c => exact congrArg some ((placed.holds hm).read_allocate 0.0)

theorem get?_write (placed : s.Placed) {c : Cell} (h : s.environment.find? name = some (.cell c))
    (v : Float) (m : Text) :
    get? { s with memory := { s.memory with store := s.memory.store.write c v } } m =
      if m = name then some v else s.get? m := by
  rw [get?_eq, get?_eq]
  split
  case isTrue same =>
    rw [same, h]
    exact congrArg some ((placed.holds h).read_write v)
  case isFalse other =>
    cases hm : s.environment.find? m with
    | none => rfl
    | some b =>
      cases b with
      | fixed x => rfl
      | cell d =>
        have apart : c ≠ d := by
          rintro rfl
          exact other (placed.apart hm h)
        exact congrArg some (Store.read_write_of_ne apart v)

theorem set_variable (placed : s.Placed) (sound : s.Sound) (h : ¬ Environment.isConstant name)
    (v : Float) : (s.set name v).1 = .ok () ∧
      ∀ m, (s.set name v).2.get? m = if m = name then some v else s.get? m := by
  obtain ⟨c, hb, bound⟩ := lookup_variable sound h
  rw [set_of_cell hb]
  refine ⟨rfl, fun m => ?_⟩
  rw [get?_write (placed.lookup name) bound v m]
  split
  case isTrue => rfl
  case isFalse other => rw [get?_lookup placed, if_neg other]

/-- After any calls the six constants have their values and all other names that are declared have
cells of their own, which they keep whatever is called later; an assignment to a constant fails and
changes nothing, and one to any other name changes that name alone. -/
theorem environment_invariant (earlier : List Call) :
    let s := initial.after earlier
    (∀ name v, (name, v) ∈ Environment.constants →
      s.environment.find? name = some (.fixed v)) ∧
    (∀ name b, s.environment.find? name = some b → ¬ Environment.isConstant name →
      ∃ c, b = .cell c ∧ s.memory.store.Holds c) ∧
    (∀ m n c, s.environment.find? m = some (.cell c) → s.environment.find? n = some (.cell c) →
      m = n) ∧
    (∀ later name b, s.environment.find? name = some b →
      (s.after later).environment.find? name = some b) ∧
    ∀ name v,
      (Environment.isConstant name →
        s.set name v = (.error ⟨.immutableBinding Operator.assign.symbol, 0⟩, s)) ∧
      (¬ Environment.isConstant name → (s.set name v).1 = .ok () ∧
        (s.set name v).2.get? name = some v ∧
        ∀ other, other ≠ name → (s.set name v).2.get? other = s.get? other) := by
  intro s
  have reached : s.Reachable := Reachable.initial.after earlier
  have placed := reached.placed
  refine ⟨fun name v => placed.constant, fun name b hb hc => ?_, fun m n c => placed.apart,
    fun later => extends_after reached later, fun name v => ⟨fun hc => set_constant placed hc v,
      fun hc => ?_⟩⟩
  · obtain ⟨c, rfl⟩ := exists_cell ((reached.sound.isVariable hb).trans (by simp [hc]))
    exact ⟨c, rfl, placed.holds hb⟩
  · obtain ⟨done, values⟩ := set_variable placed reached.sound hc v
    refine ⟨done, ?_, fun other ho => ?_⟩
    · rw [values, if_pos rfl]
    · rw [values, if_neg ho]

end Session

end Calculator
