import Calculator.Proofs.Number.Factorials
import Calculator.Proofs.Session.Control
import Calculator.Proofs.Session.Frame

/-!
# An evaluation depends on the names it consumes

Two sessions that agree on the names of a text, where a name that is not declared counts as zero,
evaluate the text to the same (`Session.evaluate_footprint`). Two variables are the same for that
purpose if they belong to the same name, whatever their cells are. Which names a run will have
looked up is known at its end only, so agreement is kept under the condition that they are among
the names on which the sessions agree.
-/

namespace Calculator

namespace Session

open Grammar

/-- What every reachable session is. -/
structure Ready (s : Session) : Prop where
  sound : s.Sound
  placed : s.Placed
  canonical : s.memory.factorials.Canonical

theorem canonical_remember {f : Factorials} (h : f.Canonical) (op : Operator) (values : List Float) :
    (op.remember f values).Canonical := by
  unfold Operator.remember
  split
  · split
    · exact (h.factorial _).2
    · exact h
  · exact h

variable {s t : Session} {op : Operator} {name : Text}

theorem Ready.lookup (h : s.Ready) (name : Text) : (s.lookup name).2.Ready where
  sound := (h.sound.lookup name).2
  placed := h.placed.lookup name
  canonical := by
    cases hn : s.environment.find? name with
    | some b =>
      rw [lookup_of_some hn]
      exact h.canonical
    | none =>
      rw [lookup_of_none hn]
      exact h.canonical

theorem Ready.apply {operands : List Binding} (h : s.Ready) (hl : operands.length = op.arity) :
    (s.apply op operands).2.Ready where
  sound := h.sound.apply op operands
  placed := h.placed.apply hl
  canonical := by
    unfold Session.apply
    by_cases hp : op.Permits (operands.map Binding.isVariable)
    · obtain ⟨e, b, does⟩ := Operator.apply_eq_effect hl hp s.memory
      rw [does.apply]
      exact canonical_remember h.canonical op _
    · rw [Operator.apply_of_not_permits hl hp]
      exact h.canonical

theorem Ready.evaluate (h : s.Ready) (source : Text) : (s.evaluate source).2.Ready :=
  evaluate_invariant (fun m ht => ht.lookup m) (fun hl ht => ht.apply hl) h source

theorem Ready.set (h : s.Ready) (name : Text) (v : Float) : (s.set name v).2.Ready where
  sound := h.sound.set name v
  placed := (h.placed.set h.sound name v).1
  canonical := by
    by_cases hc : Environment.isConstant name
    · rw [set_constant h.placed hc]
      exact h.canonical
    · obtain ⟨c, hb, -⟩ := lookup_variable h.sound hc
      rw [set_of_cell hb]
      exact (h.lookup name).canonical

theorem Reachable.ready (h : s.Reachable) : s.Ready := by
  induction h with
  | initial => exact ⟨Environment.sound_initial, placed_initial, Factorials.canonical_initial⟩
  | evaluate source _ ih => exact ih.evaluate source
  | set name v _ ih => exact ih.set name v

/-! ### Values of names -/

/-- A name that is not declared counts as zero. -/
def valueOf (s : Session) (name : Text) : Float :=
  (s.get? name).getD 0.0

theorem valueOf_lookup (placed : s.Placed) (name m : Text) :
    (s.lookup name).2.valueOf m = s.valueOf m := by
  unfold valueOf
  rw [get?_lookup placed]
  split
  case isTrue same => rw [same]; rfl
  case isFalse => rfl

theorem valueOf_of_find? {b : Binding} (h : s.environment.find? name = some b) :
    s.valueOf name = s.read b := by
  rw [valueOf, get?_eq, h]
  rfl

/-- A write to a variable, if there is one, sets its name. -/
theorem valueOf_store (placed : s.Placed) {c : Cell} (h : s.environment.find? name = some (.cell c))
    (e : Effect) (rest : List Binding) (f : Factorials) (m : Text) :
    valueOf { s with memory := ⟨e.store (.cell c :: rest) s.memory.store, f⟩ } m =
      if m = name then e.written?.getD (s.valueOf m) else s.valueOf m := by
  obtain ⟨_ | v, returned⟩ := e
  · exact (ite_self _).symm
  · have written := congrArg (Option.getD · 0.0) (get?_write placed h v m)
    refine Eq.trans written ?_
    unfold valueOf
    split <;> rfl

/-! ### Two runs -/

/-- The same value, or variables of one name that was looked up. -/
inductive Same (s t : Session × List Event) : Binding → Binding → Prop
  | fixed (v : Float) : Same s t (.fixed v) (.fixed v)
  | cell {name : Text} {c d : Cell} : name ∈ lookups s.2 →
    s.1.environment.find? name = some (.cell c) → t.1.environment.find? name = some (.cell d) →
    Same s t (.cell c) (.cell d)

theorem Same.mono {s t s' t' : Session × List Event} {b b' : Binding} (h : Same s t b b')
    (left : Later s s') (right : Later t t') : Same s' t' b b' := by
  cases h with
  | fixed v => exact .fixed v
  | cell hn bound bound' =>
    exact .cell (left.looked hn) (left.bound _ _ bound) (right.bound _ _ bound')

theorem Same.isVariable {s t : Session × List Event} {b b' : Binding} (h : Same s t b b') :
    b.isVariable = b'.isVariable := by
  cases h <;> rfl

def AgreeOn (names : List Text) (s t : Session) : Prop :=
  ∀ name ∈ names, s.valueOf name = t.valueOf name

section Steps

variable {s t : Session × List Event} {names : List Text} {vs us : List Binding} {b b' : Binding}

theorem Same.read (h : Same s t b b') (looked : lookups s.2 ⊆ names) (agree : AgreeOn names s.1 t.1) :
    s.1.read b = t.1.read b' := by
  cases h with
  | fixed v => rfl
  | @cell name c d hn bound bound' =>
    rw [← valueOf_of_find? bound, ← valueOf_of_find? bound']
    exact agree name (looked hn)

theorem values_eq (h : List.Forall₂ (Same s t) vs us) (looked : lookups s.2 ⊆ names)
    (agree : AgreeOn names s.1 t.1) :
    vs.map (·.read s.1.memory.store) = us.map (·.read t.1.memory.store) := by
  induction h with
  | nil => rfl
  | cons same _ ih =>
    rw [List.map_cons, List.map_cons, ih]
    exact congrArg (· :: _) (same.read looked agree)

/-- One effect on operands that are the same leaves the two sessions in agreement. -/
theorem agreeOn_store (h : List.Forall₂ (Same s t) vs us) (agree : AgreeOn names s.1 t.1)
    (left : s.1.Placed) (right : t.1.Placed) (e : Effect) (f g : Factorials) :
    AgreeOn names { s.1 with memory := ⟨e.store vs s.1.memory.store, f⟩ }
      { t.1 with memory := ⟨e.store us t.1.memory.store, g⟩ } := by
  intro m hm
  obtain ⟨_ | v, returned⟩ := e
  · exact agree m hm
  cases h with
  | nil => exact agree m hm
  | cons same _ =>
    cases same with
    | fixed x => exact agree m hm
    | cell hn bound bound' =>
      rw [valueOf_store left bound, valueOf_store right bound']
      split
      · rfl
      · exact agree m hm

end Steps

theorem Same.binding? {s t : Session × List Event} {vs us : List Binding} {b b' : Binding}
    (h : List.Forall₂ (Same s t) vs us) {r : Returned} (left : r.binding? vs = some b)
    (right : r.binding? us = some b') : Same s t b b' := by
  have operand (i : Nat) (hb : vs[i]? = some b) (hb' : us[i]? = some b') : Same s t b b' := by
    obtain ⟨hi, rfl⟩ := List.getElem?_eq_some_iff.mp hb
    obtain ⟨hi', rfl⟩ := List.getElem?_eq_some_iff.mp hb'
    exact (List.forall₂_iff_get.mp h).2 i hi hi'
  cases r with
  | first => exact operand 0 left right
  | second => exact operand 1 left right
  | value v =>
    cases left
    cases right
    exact .fixed v

/-- What an operator does depends on the values of its operands. -/
theorem effect_eq {s t : Session} {operands operands' : List Binding} {e e' : Effect} {b b' : Binding}
    (left : s.Ready) (right : t.Ready) (does : op.Does operands s.memory e b)
    (does' : op.Does operands' t.memory e' b')
    (values : operands.map s.read = operands'.map t.read) : e = e' := by
  have factorials : (fun v => (s.memory.factorials.factorial v).1) =
      fun v => (t.memory.factorials.factorial v).1 :=
    funext fun v => (left.canonical.factorial v).1.trans (right.canonical.factorial v).1.symm
  have effect := does.effect
  rw [factorials, show operands.map (·.read s.memory.store) = _ from values] at effect
  exact Option.some.inj (effect.symm.trans does'.effect)

/-- An operator in two sessions that agree. -/
theorem apply_alike {s t : Session × List Event} {names : List Text} {vs us : List Binding}
    (looked : lookups s.2 ⊆ names) (agree : AgreeOn names s.1 t.1) (left : s.1.Ready)
    (right : t.1.Ready) (h : List.Forall₂ (Same s t) vs us) (hl : vs.length = op.arity) :
    AgreeOn names (s.1.apply op vs).2 (t.1.apply op us).2 ∧
      Alike (Same s t) Eq (s.1.apply op vs).1 (t.1.apply op us).1 := by
  have hl' : us.length = op.arity := h.length_eq ▸ hl
  have kinds := Binding.isVariable_map (h.imp fun _ _ => Same.isVariable)
  unfold Session.apply
  by_cases hp : op.Permits (vs.map Binding.isVariable)
  · obtain ⟨e, b, does⟩ := Operator.apply_eq_effect hl hp s.1.memory
    obtain ⟨e', b', does'⟩ := Operator.apply_eq_effect hl' (kinds ▸ hp) t.1.memory
    obtain rfl := effect_eq left right does does' (values_eq h looked agree)
    rw [does.apply, does'.apply]
    exact ⟨agreeOn_store h agree left.placed right.placed e _ _,
      Same.binding? h does.returned does'.returned⟩
  · rw [Operator.apply_of_not_permits hl hp, Operator.apply_of_not_permits hl' (kinds ▸ hp)]
    exact ⟨agree, rfl⟩

/-- Logged runs in two sessions that agree on some names, as long as no other name is looked up. -/
def twin (names : List Text) : Simulation ((Session × List Event) × (Session × List Event))
    actions.logged actions.logged where
  grows w x := Later w.1 x.1 ∧ Later w.2 x.2
  grows_refl w := ⟨.refl w.1, .refl w.2⟩
  grows_trans h h' := ⟨h.1.trans h'.1, h.2.trans h'.2⟩
  state w s t := w = (s, t) ∧ s.2 = t.2 ∧ s.1.Ready ∧ t.1.Ready ∧
    (lookups s.2 ⊆ names → AgreeOn names s.1 t.1)
  value w b b' := b.isVariable = b'.isVariable ∧ (lookups w.1.2 ⊆ names → Same w.1 w.2 b b')
  value_mono later h :=
    ⟨h.1, fun looked => (h.2 (List.Subset.trans later.1.looked looked)).mono later.1 later.2⟩
  number w m := number_alike (R := fun b b' => b.isVariable = b'.isVariable ∧
    (lookups w.1.2 ⊆ names → Same w.1 w.2 b b')) (fun v => ⟨rfl, fun _ => .fixed v⟩) m
  name {w s t} m := by
    rintro ⟨rfl, same, left, right, agree⟩
    refine ⟨_, ⟨later_lookup s m, later_lookup t m⟩, ⟨rfl, congrArg (Event.lookedUp m :: ·) same,
      left.lookup m, right.lookup m, fun looked n hn => ?_⟩,
      (left.sound.lookup m).1.trans (right.sound.lookup m).1.symm, fun _ => ?_⟩
    · have before := agree (List.Subset.trans (List.subset_cons_self _ _) looked) n hn
      exact (valueOf_lookup left.placed m n).trans
        (before.trans (valueOf_lookup right.placed m n).symm)
    · show Same _ _ (s.1.lookup m).1 (t.1.lookup m).1
      by_cases hc : Environment.isConstant m
      · obtain ⟨v, hv, -, found⟩ := lookup_constant left.placed hc
        rw [found, lookup_of_some (right.placed.constant hv)]
        exact .fixed v
      · obtain ⟨c, hb, bound⟩ := lookup_variable left.sound hc
        obtain ⟨d, hb', bound'⟩ := lookup_variable right.sound hc
        rw [hb, hb']
        exact .cell List.mem_cons_self bound bound'
  isVariable h := h.1
  apply {w s t n vs us op} hl := by
    rintro ⟨rfl, same, left, right, agree⟩ alike
    have later := later_apply s op vs n
    have later' := later_apply t op us n
    have applied (looked : lookups s.2 ⊆ names) :=
      apply_alike looked (agree looked) left right (alike.imp fun _ _ h => h.2 looked) hl
    have outcome := (apply_isVariable (s := s.1) (t := t.1) hl (alike.imp fun _ _ h => h.1)).and
      fun looked => (applied looked).2
    exact ⟨_, ⟨later, later'⟩, ⟨rfl, congrArg (Event.applied op n :: ·) same, left.apply hl,
      right.apply (alike.length_eq ▸ hl), fun looked => (applied looked).1⟩,
      outcome.mono (fun h => ⟨h.1, fun looked => (h.2 looked).mono later later'⟩) id⟩

/-! ### Evaluations -/

theorem names_eq_lookups (s : Session) (source : Text) :
    s.names source = lookups (s.follow .statements (.start source)).state.2 := by
  rw [names, tokens_eq, run_eq_follow, lookups_follow s .statements (.start source) rfl]

theorem evaluate_state (s : Session) (source : Text) :
    (s.evaluate source).2 = (s.follow .statements (.start source)).state.1 := by
  rw [evaluate_eq_run, run_eq_follow]

theorem names_control {p q : Session} (left : p.Sound) (right : q.Sound) (source : Text) :
    q.names source = p.names source := by
  rw [names_eq_lookups, names_eq_lookups]
  exact congrArg lookups (follow_control left right .statements (.start source)).2.1.symm

/-- Two runs that look up no name on which the sessions differ. -/
theorem follow_twin {p q : Session} {names : List Text} (left : p.Ready) (right : q.Ready)
    (agree : AgreeOn names p q) (rule : Rule) (c : Cursor)
    (looked : lookups (p.follow rule c).state.2 ⊆ names) :
    AgreeOn names (p.follow rule c).state.1 (q.follow rule c).state.1 ∧
    (p.follow rule c).outcome.map (p.follow rule c).state.1.read =
      (q.follow rule c).outcome.map (q.follow rule c).state.1.read := by
  obtain ⟨w, -, ⟨rfl, -, -, -, agree'⟩, -, alike⟩ :=
    (twin names).run (w := ((p, []), (q, []))) ⟨rfl, rfl, left, right, fun _ => agree⟩ rule c
  have agree' := agree' looked
  exact ⟨agree', alike.map_eq fun _ _ same => (same.2 looked).read looked agree'⟩

theorem get?_of_valueOf {s t : Session} (same : s.valueOf name = t.valueOf name)
    (left : (s.get? name).isSome) (right : (t.get? name).isSome) : s.get? name = t.get? name := by
  obtain ⟨v, hv⟩ := Option.isSome_iff_exists.mp left
  obtain ⟨u, hu⟩ := Option.isSome_iff_exists.mp right
  rw [valueOf, valueOf, hv, hu] at same
  rw [hv, hu]
  exact congrArg some same

/-- An evaluation changes no name that it does not consume and declares those that it does; what it
returns and what it leaves in them depends on their values alone. -/
theorem evaluate_footprint {p : Session} (reached : p.Reachable) (source : Text) :
    (∀ name, name ∉ p.names source → (p.evaluate source).2.get? name = p.get? name) ∧
    (∀ name, ((p.evaluate source).2.get? name).isSome ↔
      (p.get? name).isSome ∨ name ∈ p.names source) ∧
    ∀ {q : Session}, q.Reachable → AgreeOn (p.names source) p q →
      (p.evaluate source).1 = (q.evaluate source).1 ∧ q.names source = p.names source ∧
      ∀ name ∈ p.names source,
        (p.evaluate source).2.get? name = (q.evaluate source).2.get? name := by
  have framed {s : Session} (h : s.Reachable) := follow_frame h.placed .statements (.start source)
  have left := framed reached
  rw [evaluate_state, names_eq_lookups]
  refine ⟨left.kept, left.declared, fun {q} reached' agree => ?_⟩
  have same := names_control reached.sound reached'.sound source
  obtain ⟨agree', outcome⟩ := follow_twin reached.ready reached'.ready agree .statements
    (.start source) (List.Subset.refl _)
  rw [names_eq_lookups, names_eq_lookups] at same
  rw [evaluate_eq_run p, evaluate_eq_run q, run_eq_follow, run_eq_follow q, names_eq_lookups]
  refine ⟨outcome, same, fun name hn => ?_⟩
  have right := framed reached'
  exact get?_of_valueOf (agree' name hn) ((left.declared name).mpr (.inr hn))
    ((right.declared name).mpr (.inr (same ▸ hn)))

/-- A text that fails after its first statement, in a session without its name and in one where the
name has been set to zero. -/
theorem evaluate_footprint_undeclared :
    let p := Session.initial
    let q := (p.set ['x'] 0.0).2
    let source := "x++ + x; true = x".toList
    p.Reachable ∧ q.Reachable ∧ AgreeOn (p.names source) p q ∧
      (p.evaluate source).1 = (q.evaluate source).1 ∧ q.names source = p.names source ∧
      ∀ name ∈ p.names source,
        (p.evaluate source).2.get? name = (q.evaluate source).2.get? name := by
  intro p q source
  have reached : p.Reachable := .initial
  have reached' : q.Reachable := .set ['x'] 0.0 .initial
  have values (m : Text) : q.get? m = if m = ['x'] then some 0.0 else p.get? m :=
    (set_variable placed_initial reached.sound (by decide) 0.0).2 m
  have agree : AgreeOn (p.names source) p q := by
    intro m _
    unfold valueOf
    rw [values m]
    split
    case isTrue same => rw [same]; rfl
    case isFalse => rfl
  exact ⟨reached, reached', agree, (evaluate_footprint reached source).2.2 reached' agree⟩

end Session

end Calculator
