import Calculator.Proofs.Session.Footprint
import Calculator.Proofs.Session.Spacing
import Calculator.Session.Call

/-!
# Programs that write nothing

An evaluation without assignments and updates only declares names and remembers factorials
(`Session.Onward`). Evaluated again in the session that it has left, the text finds all its names
declared and all its factorials remembered, so that the session stays as it is
(`Session.evaluate_writeFree`). What the first evaluation leaves is known at its end only: the second
one is followed as long as the first one has not gone beyond the session in question.
-/

namespace Calculator

namespace Operator

theorem size_remember {f : Factorials} (h : f.Canonical) (op : Operator) (values : List Float) :
    f.size ≤ (op.remember f values).size := by
  unfold remember
  split
  · split
    · exact h.size_le _
    · exact Nat.le_refl _
  · exact Nat.le_refl _

theorem remember_of_size {op : Operator} {f g : Factorials} {values : List Float} (h : f.Canonical)
    (enough : (op.remember f values).size ≤ g.size) : op.remember g values = g := by
  unfold remember at enough ⊢
  split
  · split
    case isTrue same =>
      simp only [if_pos same] at enough
      exact h.factorial_of_size enough
    case isFalse => rfl
  · rfl

end Operator

namespace Session

open Grammar

/-! ### Operators that write nothing -/

/-- The session after an operator that writes nothing. -/
def remembering (s : Session) (op : Operator) (operands : List Binding) : Session :=
  { s with memory := { s.memory with
    factorials := op.remember s.memory.factorials (operands.map s.read) } }

variable {s t : Session} {op : Operator} {operands : List Binding}

theorem does_of_not_writes (hl : operands.length = op.arity) (hw : writes op = false) (s : Session) :
    ∃ e b, op.Does operands s.memory e b ∧
      s.apply op operands = (.ok b, s.remembering op operands) := by
  obtain ⟨e, b, does⟩ := Operator.apply_eq_effect hl (Operator.permits_of_not_writes hw _) s.memory
  have silent := Operator.written?_of_not_writes hw does.effect
  have store : e.store operands s.memory.store = s.memory.store := by
    unfold Effect.store
    rw [silent]
  refine ⟨e, b, does, ?_⟩
  rw [Session.apply, does.apply, store]
  rfl

/-- Two sessions in which the operands have the same values. -/
theorem apply_of_not_writes (left : s.Ready) (right : t.Ready) (hl : operands.length = op.arity)
    (hw : writes op = false) (same : ∀ b ∈ operands, s.read b = t.read b) :
    ∃ b, s.apply op operands = (.ok b, s.remembering op operands) ∧
      t.apply op operands = (.ok b, t.remembering op operands) := by
  obtain ⟨e, b, does, applied⟩ := does_of_not_writes hl hw s
  obtain ⟨e', b', does', applied'⟩ := does_of_not_writes hl hw t
  obtain rfl := effect_eq left right does does' (List.map_congr_left same)
  obtain rfl := Option.some.inj (does.returned.symm.trans does'.returned)
  exact ⟨b, applied, applied'⟩

/-! ### Along the first run -/

/-- No operator that writes has been applied. -/
def Calm (log : List Event) : Prop :=
  ∀ op n, .applied op n ∈ log → writes op = false

/-- A session with a log, later in the same run. -/
structure Onward (s t : Session × List Event) : Prop where
  later : Later s t
  log : s.2 ⊆ t.2
  remembered : s.1.memory.factorials.size ≤ t.1.memory.factorials.size
  values : Calm t.2 → t.1.valueOf = s.1.valueOf

namespace Onward

variable {s t u : Session × List Event}

theorem calm (h : Onward s t) (calm : Calm t.2) : Calm s.2 :=
  fun op n hop => calm op n (h.log hop)

theorem refl (s : Session × List Event) : Onward s s :=
  ⟨.refl s, List.Subset.refl _, Nat.le_refl _, fun _ => rfl⟩

theorem trans (h : Onward s t) (h' : Onward t u) : Onward s u where
  later := h.later.trans h'.later
  log := List.Subset.trans h.log h'.log
  remembered := Nat.le_trans h.remembered h'.remembered
  values calm := (h'.values calm).trans (h.values (h'.calm calm))

theorem lookup (placed : s.1.Placed) (name : Text) :
    Onward s ((s.1.lookup name).2, .lookedUp name :: s.2) where
  later := later_lookup s name
  log := List.subset_cons_self _ _
  remembered := Nat.le_refl _
  values _ := funext (valueOf_lookup placed name)

theorem apply (ready : s.1.Ready) (hl : operands.length = op.arity) (n : Nat) :
    Onward s ((s.1.apply op operands).2, .applied op n :: s.2) where
  later := later_apply s op operands n
  log := List.subset_cons_self _ _
  remembered := by
    by_cases hp : op.Permits (operands.map Binding.isVariable)
    · obtain ⟨e, b, does⟩ := Operator.apply_eq_effect hl hp s.1.memory
      rw [Session.apply, does.apply]
      exact Operator.size_remember ready.canonical op _
    · have same : (s.1.apply op operands).2 = s.1 := by
        rw [Session.apply, Operator.apply_of_not_permits hl hp]
      exact Nat.le_of_eq (congrArg (·.memory.factorials.size) same.symm)
  values calm := by
    obtain ⟨_, _, _, applied⟩ := does_of_not_writes hl (calm op n List.mem_cons_self) s.1
    show (s.1.apply op operands).2.valueOf = _
    rw [applied]
    rfl

end Onward

/-! ### Beside a run that stays in one session -/

/-- What `s` has declared and remembered is so in `q`, with the same values. -/
structure Within (s q : Session) : Prop where
  bound : s.Extends q
  remembered : s.memory.factorials.size ≤ q.memory.factorials.size
  values : s.valueOf = q.valueOf

theorem Within.refl (s : Session) : s.Within s :=
  ⟨.refl s, Nat.le_refl _, rfl⟩

variable {q : Session}

theorem Within.before {s t : Session × List Event} (h : t.1.Within q) (onward : Onward s t)
    (calm : Calm t.2) : s.1.Within q where
  bound := onward.later.bound.trans h.bound
  remembered := Nat.le_trans onward.remembered h.remembered
  values := (onward.values calm).symm.trans h.values

theorem Within.read {s : Session × List Event} (h : s.1.Within q) {b : Binding} (known : Known s b) :
    s.1.read b = q.read b := by
  cases b with
  | fixed v => rfl
  | cell c =>
    obtain ⟨name, -, bound⟩ := known c rfl
    rw [← valueOf_of_find? bound, ← valueOf_of_find? (h.bound name _ bound), h.values]

/-- A name that has been looked up is declared. -/
theorem Within.lookup {m : Text} (h : (s.lookup m).2.Within q) : q.lookup m = ((s.lookup m).1, q) :=
  lookup_of_some (h.bound m _ ((find?_lookup s m m).trans (if_pos rfl)))

theorem Within.remembering (h : (s.remembering op operands).Within q) (ready : s.Ready)
    (same : ∀ b ∈ operands, s.read b = q.read b) : q.remembering op operands = q := by
  have values : operands.map s.read = operands.map q.read := List.map_congr_left same
  have enough : (op.remember s.memory.factorials (operands.map s.read)).size ≤ _ := h.remembered
  rw [values] at enough
  unfold Session.remembering
  rw [Operator.remember_of_size ready.canonical enough]

/-- An operator that has written nothing comes to the same again. -/
theorem Within.apply {s : Session × List Event} {n : Nat}
    (h : (s.1.apply op operands).2.Within q) (left : s.1.Ready) (ready : q.Ready)
    (hl : operands.length = op.arity) (calm : Calm (.applied op n :: s.2))
    (known : ∀ b ∈ operands, Known s b) :
    q.apply op operands = ((s.1.apply op operands).1, q) := by
  have before : s.1.Within q := Within.before h (Onward.apply left hl n) calm
  have same : ∀ b ∈ operands, s.1.read b = q.read b := fun b hb => before.read (known b hb)
  obtain ⟨b, applied, applied'⟩ :=
    apply_of_not_writes left ready hl (calm op n List.mem_cons_self) same
  rw [applied] at h ⊢
  rw [applied', h.remembering left same]

/-- A run with its log beside a run that begins in `q`, and stays there as long as the first one has
written nothing and is within `q`. -/
def again (ready : q.Ready) : Simulation (Session × List Event) actions.logged actions where
  grows := Onward
  grows_refl := Onward.refl
  grows_trans := Onward.trans
  state w s t := w = s ∧ s.1.Ready ∧ t.Sound ∧ (Calm s.2 → s.1.Within q → t = q)
  value w b b' := b.isVariable = b'.isVariable ∧ Known w b ∧ (Calm w.2 → w.1.Within q → b = b')
  value_mono onward h := ⟨h.1, h.2.1.mono onward.later, fun calm within =>
    h.2.2 (onward.calm calm) (within.before onward calm)⟩
  number w m := number_alike (R := fun b b' => b.isVariable = b'.isVariable ∧ Known w b ∧
    (Calm w.2 → w.1.Within q → b = b')) (fun _ => ⟨rfl, fun _ hc => (nomatch hc), fun _ _ => rfl⟩) m
  name {w s t} m := by
    rintro ⟨rfl, left, right, same⟩
    have onward := Onward.lookup left.placed m
    have there (calm : Calm (.lookedUp m :: w.2)) (within : (w.1.lookup m).2.Within q) :
        t.lookup m = ((w.1.lookup m).1, q) := by
      rw [same (onward.calm calm) (within.before onward calm)]
      exact within.lookup
    refine ⟨_, onward, ⟨rfl, left.lookup m, (right.lookup m).2, fun calm within => ?_⟩,
      (left.sound.lookup m).1.trans (right.lookup m).1.symm, fun c hc => ?_, fun calm within => ?_⟩
    · exact congrArg Prod.snd (there calm within)
    · exact ⟨m, List.mem_cons_self, (find?_lookup w.1 m m).trans (if_pos rfl)⟩
    · exact (congrArg Prod.fst (there calm within)).symm
  isVariable h := h.1
  apply {w s t n vs us op} hl := by
    rintro ⟨rfl, left, right, same⟩ alike
    have onward := Onward.apply left hl n
    have known : ∀ b ∈ vs, Known w b :=
      ((List.forall₂_and_left (p := Known w) vs us).mp (alike.imp fun _ _ h => ⟨h.2.1, h⟩)).1
    have there (calm : Calm (.applied op n :: w.2)) (within : (w.1.apply op vs).2.Within q) :
        t.apply op us = ((w.1.apply op vs).1, q) := by
      have before := within.before onward calm
      have calm' := onward.calm calm
      obtain rfl : vs = us := List.forall₂_eq_eq_eq ▸ alike.imp fun _ _ h => h.2.2 calm' before
      rw [same calm' before]
      exact within.apply left ready hl calm known
    have outcome := apply_isVariable (s := w.1) (t := t) hl (alike.imp fun _ _ h => h.1)
    have result : ∀ b, (w.1.apply op vs).1 = .ok b → Known _ b := fun b applied =>
      (Known.of_apply hl known applied).mono onward.later
    refine ⟨_, onward, ⟨rfl, left.apply hl, right.apply op us, fun calm within =>
      congrArg Prod.snd (there calm within)⟩, ?_⟩
    have equal (h : Calm (.applied op n :: w.2) ∧ (w.1.apply op vs).2.Within q) :
        Alike Eq Eq (w.1.apply op vs).1 (t.apply op us).1 := by
      rw [there h.1 h.2]
      exact .refl _
    exact ((outcome.and_left result).and equal).mono
      (fun h => ⟨h.1.2, h.1.1, fun calm within => h.2 ⟨calm, within⟩⟩) id

/-! ### Evaluations -/

theorem WriteFree.calm {p : Session} {source : Text} (free : p.WriteFree source) :
    Calm (p.events source) := by
  intro op n hop
  have keeps := (invariant_symbols actions).run (s := (p, [])) (c := .start source)
    .statements ⟨fun _ hp => (nomatch hp), fun _ _ hop => nomatch hop⟩
  obtain ⟨_, -, shown⟩ := keeps.kept
  obtain ⟨l, hl, same⟩ := shown op n hop
  rw [← Bool.not_eq_true]
  intro hw
  refine free l ?_ op hw same
  rw [tokens_eq, run_eq_follow]
  exact hl

/-- The characters that tell assignments and updates from other symbols. -/
def inWrite (c : Char) : Bool :=
  ['=', '+', '-'].contains c

theorem writeFree_of_characters {source : Text} (absent : source.all fun c => !inWrite c)
    (p : Session) : p.WriteFree source := by
  have symbols : ∀ op ∈ Operator.all, writes op → op.symbol.any inWrite := by decide
  intro l hl op hw same
  obtain ⟨c, hc, hit⟩ := List.any_eq_true.mp (symbols op (Operator.mem_all op) hw)
  have miss := List.all_eq_true.mp absent c (p.text_subset source hl (same ▸ hc))
  rw [hit] at miss
  cases miss

theorem evaluate_again {p : Session} (ready : p.Ready) {source : Text} (calm : Calm (p.events source)) :
    Onward (p, []) ((p.evaluate source).2, p.events source) ∧
      (p.evaluate source).2.evaluate source = ((p.evaluate source).1, (p.evaluate source).2) := by
  have final := ready.evaluate source
  obtain ⟨w, onward, ⟨rfl, -, -, stays⟩, -, alike⟩ :=
    (again final).run (w := (p, [])) ⟨rfl, ready, final.sound, fun _ _ => rfl⟩ .statements (.start source)
  have left : (p.evaluate source).2 = (p.follow .statements (.start source)).state.1 :=
    evaluate_state p source
  have within : (p.follow .statements (.start source)).state.1.Within (p.evaluate source).2 :=
    left ▸ .refl _
  have stays := stays calm within
  have same := alike.map_eq (f := (p.evaluate source).2.read) (g := (p.evaluate source).2.read)
    fun _ _ h => by rw [h.2.2 calm within]
  have first : (p.evaluate source).1 =
      (p.follow .statements (.start source)).outcome.map (p.evaluate source).2.read := by
    rw [left, evaluate_eq_run p, run_eq_follow]
  refine ⟨left ▸ onward, ?_⟩
  rw [evaluate_eq_run (p.evaluate source).2, stays, first]
  exact Prod.ext same.symm rfl

/-- A text without assignments and updates leaves every name its value, and new names at zero.
However often it is evaluated again, it comes to the same and leaves the session as it is. -/
theorem evaluate_writeFree {p : Session} (reached : p.Reachable) {source : Text}
    (free : p.WriteFree source) :
    let q := (p.evaluate source).2
    (∀ name v, p.get? name = some v → q.get? name = some v) ∧
    (∀ name v, p.get? name = none → q.get? name = some v → v = 0.0) ∧
    ∀ n, let r := q.after (List.replicate n (.evaluate source))
      r = q ∧ r.evaluate source = ((p.evaluate source).1, q) := by
  intro q
  obtain ⟨onward, same⟩ := evaluate_again reached.ready free.calm
  have values (name : Text) : q.valueOf name = p.valueOf name :=
    congrFun (onward.values free.calm) name
  refine ⟨fun name v hv => ?_, fun name v hv hq => ?_, fun n => ?_⟩
  · have declared : (p.get? name).isSome := by rw [hv]; rfl
    rw [← hv]
    refine get?_of_valueOf (values name) ?_ declared
    rw [isSome_get?] at declared ⊢
    obtain ⟨b, hb⟩ := Option.isSome_iff_exists.mp declared
    exact Option.isSome_iff_exists.mpr ⟨b, onward.later.bound name b hb⟩
  · have zero := values name
    rw [valueOf, valueOf, hv, hq] at zero
    exact zero
  · have stays : q.after (List.replicate n (.evaluate source)) = q := by
      induction n with
      | zero => rfl
      | succ n ih => exact (congrArg (fun r => Session.after r _) (congrArg Prod.snd same)).trans ih
    exact ⟨stays, by rw [stays]; exact same⟩

/-- A text that fails behind a factorial. -/
theorem evaluate_writeFree_failing :
    let source := "x * 5! / )".toList
    let q := (Session.initial.evaluate source).2
    Session.initial.Reachable ∧ Session.initial.WriteFree source ∧
    (∀ name v, Session.initial.get? name = some v → q.get? name = some v) ∧
    (∀ name v, Session.initial.get? name = none → q.get? name = some v → v = 0.0) ∧
    ∀ n, let r := q.after (List.replicate n (.evaluate source))
      r = q ∧ r.evaluate source = ((Session.initial.evaluate source).1, q) := by
  intro source q
  have free : Session.initial.WriteFree source := writeFree_of_characters rfl _
  exact ⟨.initial, free, evaluate_writeFree .initial free⟩

end Session

end Calculator
