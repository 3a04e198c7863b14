import Calculator.Proofs.Grammar.Simulation
import Calculator.Proofs.Session.Cells
import Calculator.Session.Trace

/-!
# What an evaluation leaves alone

A run changes and declares no name that it does not look up (`Session.follow_frame`). Every variable
that it has at hand, as an operand or as a result, belongs to a name that it has looked up, and an
operator writes to nothing but its first operand.
-/

namespace Calculator

namespace Session

open Grammar

/-! ### One operator -/

variable {s : Session} {op : Operator} {operands : List Binding} {e : Effect} {b : Binding}

theorem get?_of_reads {m : Memory} {name : Text}
    (same : ∀ c, s.environment.find? name = some (.cell c) → m.store.read c = s.memory.store.read c) :
    get? { s with memory := m } name = s.get? name := by
  rw [get?_eq, get?_eq]
  cases h : s.environment.find? name with
  | none => rfl
  | some b =>
    cases b with
    | fixed v => rfl
    | cell c => exact congrArg some (same c h)

/-- An operator changes at most the name of its first operand. -/
theorem get?_apply_of_ne (hl : operands.length = op.arity) {name : Text}
    (other : ∀ c, operands.head? = some (.cell c) → s.environment.find? name ≠ some (.cell c)) :
    (s.apply op operands).2.get? name = s.get? name := by
  unfold apply
  by_cases hp : op.Permits (operands.map Binding.isVariable)
  · obtain ⟨e, b, does⟩ := Operator.apply_eq_effect hl hp s.memory
    rw [does.apply]
    exact get?_of_reads fun c hc => Effect.read_store_of_ne fun head => other c head hc
  · rw [Operator.apply_of_not_permits hl hp]

/-- What an operator hands back is new or one of its operands. -/
theorem mem_of_apply (hl : operands.length = op.arity)
    (applied : (s.apply op operands).1 = .ok b) (variable' : b.isVariable) : b ∈ operands := by
  unfold apply at applied
  by_cases hp : op.Permits (operands.map Binding.isVariable)
  · obtain ⟨e, b', does⟩ := Operator.apply_eq_effect hl hp s.memory
    rw [does.apply] at applied
    obtain rfl : b' = b := Except.ok.inj applied
    have returned := does.returned
    cases hr : e.returned with
    | first => exact List.mem_of_getElem? (hr ▸ returned)
    | second => exact List.mem_of_getElem? (hr ▸ returned)
    | value v =>
      rw [hr] at returned
      cases returned
      cases variable'
  · rw [Operator.apply_of_not_permits hl hp] at applied
    cases applied

/-! ### One run -/

/-- A session with a log, later in the same run. -/
structure Later (s t : Session × List Event) : Prop where
  bound : s.1.Extends t.1
  looked : lookups s.2 ⊆ lookups t.2

theorem Later.refl (s : Session × List Event) : Later s s := ⟨.refl _, List.Subset.refl _⟩

theorem Later.trans {s t u : Session × List Event} (h : Later s t) (h' : Later t u) : Later s u :=
  ⟨h.bound.trans h'.bound, List.Subset.trans h.looked h'.looked⟩

theorem later_lookup (s : Session × List Event) (name : Text) :
    Later s ((s.1.lookup name).2, .lookedUp name :: s.2) :=
  ⟨extends_lookup s.1 name, List.subset_cons_self _ _⟩

theorem later_apply (s : Session × List Event) (op : Operator) (operands : List Binding) (n : Nat) :
    Later s ((s.1.apply op operands).2, .applied op n :: s.2) :=
  ⟨.refl s.1, List.Subset.refl _⟩

/-- A variable at hand belongs to a name that was looked up. -/
def Known (s : Session × List Event) (b : Binding) : Prop :=
  ∀ c, b = .cell c → ∃ name ∈ lookups s.2, s.1.environment.find? name = some b

theorem Known.mono {s t : Session × List Event} (later : Later s t) (h : Known s b) :
    Known t b := by
  intro c hc
  obtain ⟨name, hn, bound⟩ := h c hc
  exact ⟨name, later.looked hn, later.bound name b bound⟩

theorem Known.of_apply {s : Session × List Event} (hl : operands.length = op.arity)
    (known : ∀ b ∈ operands, Known s b) (applied : (s.1.apply op operands).1 = .ok b) : Known s b :=
  fun c hc => known b (mem_of_apply hl applied (hc ▸ rfl)) c hc

/-- What a run that began with `p` has left of it. -/
structure Frame (p : Session) (s : Session × List Event) : Prop where
  placed : s.1.Placed
  declared : ∀ name, (s.1.get? name).isSome ↔ (p.get? name).isSome ∨ name ∈ lookups s.2
  kept : ∀ name, name ∉ lookups s.2 → s.1.get? name = p.get? name

theorem Frame.lookup {p : Session} {s : Session × List Event} (h : Frame p s) (name : Text) :
    Frame p ((s.1.lookup name).2, .lookedUp name :: s.2) where
  placed := h.placed.lookup name
  declared m := by
    have before := h.declared m
    rw [get?_lookup h.placed, lookups, List.mem_cons]
    split
    case isTrue same => exact iff_of_true rfl (.inr (.inl same))
    case isFalse other => simp [before, other]
  kept m hm := by
    rw [lookups, List.mem_cons, not_or] at hm
    rw [get?_lookup h.placed, if_neg hm.1]
    exact h.kept m hm.2

theorem isSome_get? (s : Session) (name : Text) :
    (s.get? name).isSome = (s.environment.find? name).isSome := by
  rw [get?_eq, Option.isSome_map]

theorem Frame.apply {p : Session} {s : Session × List Event} (h : Frame p s)
    (hl : operands.length = op.arity) (known : ∀ b ∈ operands, Known s b) (n : Nat) :
    Frame p ((s.1.apply op operands).2, .applied op n :: s.2) where
  placed := h.placed.apply hl
  declared m := by
    have before := h.declared m
    rw [isSome_get?] at before ⊢
    exact before
  kept m hm := by
    rw [get?_apply_of_ne hl, h.kept m hm]
    intro c head hc
    obtain ⟨name, hn, bound⟩ := known (.cell c) (List.mem_of_head? head) c rfl
    exact hm (h.placed.apart hc bound ▸ hn)

/-- A run with its log beside the same run without. -/
def frame (p : Session) : Simulation (Session × List Event) actions.logged actions where
  grows := Later
  grows_refl := Later.refl
  grows_trans := Later.trans
  state w s t := w = s ∧ s.1 = t ∧ Frame p s
  value w b b' := b = b' ∧ Known w b
  value_mono later h := ⟨h.1, h.2.mono later⟩
  number _ m := number_alike (fun _ => ⟨rfl, fun _ hc => nomatch hc⟩) m
  name {w s t} m := by
    rintro ⟨rfl, rfl, h⟩
    refine ⟨_, later_lookup w m, ⟨rfl, rfl, h.lookup m⟩, rfl, fun c hc => ?_⟩
    refine ⟨m, List.mem_cons_self, ?_⟩
    exact (find?_lookup w.1 m m).trans (if_pos rfl)
  isVariable h := h.1 ▸ rfl
  apply {w s t n vs us op} hl := by
    rintro ⟨rfl, rfl, h⟩ alike
    have known : ∀ b ∈ vs, Known w b :=
      ((List.forall₂_and_left (p := Known w) vs us).mp (alike.imp fun _ _ h => ⟨h.2, h.1⟩)).1
    obtain rfl : vs = us := List.forall₂_eq_eq_eq ▸ alike.imp fun _ _ h => h.1
    refine ⟨_, later_apply w op vs n, ⟨rfl, rfl, h.apply hl known n⟩, ?_⟩
    show Alike _ _ (w.1.apply op vs).1 (w.1.apply op vs).1
    cases applied : (w.1.apply op vs).1 with
    | error f => exact rfl
    | ok b =>
      have result : Known w b := Known.of_apply hl known applied
      exact ⟨rfl, result.mono (later_apply w op vs n)⟩

theorem lookups_follow (s : Session) (rule : Rule) (c : Cursor) (fresh : c.passed = []) :
    lookups (s.follow rule c).state.2 = namesOf (s.follow rule c).cursor.passed := by
  have start : lookups (s, ([] : List Event)).2 = namesOf c.passed := by
    rw [fresh]
    rfl
  obtain ⟨_, kept⟩ := ((invariant_names actions).run rule start).kept
  exact kept

theorem follow_frame {p : Session} (placed : p.Placed) (rule : Rule) (c : Cursor) :
    Frame p (p.follow rule c).state := by
  have fresh : Frame p (p, []) := ⟨placed, fun _ => by simp [lookups], fun _ _ => rfl⟩
  obtain ⟨w, -, ⟨same, -, h⟩, -⟩ :=
    (frame p).run (w := (p, [])) (s := (p, [])) (t := p) ⟨rfl, rfl, fresh⟩ rule c
  exact h

end Session

end Calculator
