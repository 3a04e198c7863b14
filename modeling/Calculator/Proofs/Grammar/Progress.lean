import Calculator.Grammar.Visit
import Calculator.Proofs.Grammar.Invariant
import Calculator.Proofs.Grammar.Simulation
import Calculator.Proofs.Token.Position

/-!
# No routine goes back

What holds wherever a routine ends: it stands in the same text, not before the cursor it was entered
at (`reaches_run`), and has looked up and applied no more than there are bytes between the two
(`length_events_le`).
-/

namespace Calculator

/-! ### Later cursors of a text -/

/-- `d` stands in the same text as `c` and not before it. -/
structure Cursor.Reaches (c d : Cursor) : Prop where
  suffix : d.rest <:+ c.rest
  offset : d.offset + Text.extent d.rest = c.offset + Text.extent c.rest

namespace Text

theorem extent_le_of_suffix {s t : Text} (h : s <:+ t) : extent s ≤ extent t := by
  obtain ⟨front, rfl⟩ := h
  rw [extent_append]
  omega

end Text

namespace Cursor

variable {c d e : Cursor}

theorem Reaches.refl (c : Cursor) : c.Reaches c :=
  ⟨List.suffix_rfl, rfl⟩

theorem Reaches.trans (h : c.Reaches d) (h' : d.Reaches e) : c.Reaches e :=
  ⟨h'.suffix.trans h.suffix, h'.offset.trans h.offset⟩

theorem Reaches.le (h : c.Reaches d) : c.offset ≤ d.offset := by
  have := Text.extent_le_of_suffix h.suffix
  have := h.offset
  omega

theorem offset_pass_lt {k : TokenKind} {m : Text} (hm : k.longest? c.rest = some m) :
    c.offset < (c.pass k m).offset := by
  have := Text.extent_pos (TokenKind.longest?_ne_nil hm)
  show c.offset < c.offset + Text.extent m + Text.extent _
  omega

theorem reaches_pass {k : TokenKind} {m : Text} (hm : k.longest? c.rest = some m) :
    c.Reaches (c.pass k m) := by
  have split := rest_of_longest? hm
  have total := congrArg Text.extent split
  rw [Text.extent_append, Text.extent_append] at total
  refine ⟨⟨_, split.symm⟩, ?_⟩
  show c.offset + Text.extent m + Text.extent (Text.leadingBlank (c.rest.drop m.length)) +
    Text.extent (c.pass k m).rest = _
  omega

/-- Behind a token that has been passed. -/
structure Passed (c d : Cursor) : Prop where
  reaches : c.Reaches d
  lt : c.offset < d.offset

theorem Passed.before (h : c.Passed d) (h' : d.Reaches e) : c.Passed e :=
  ⟨h.reaches.trans h', Nat.lt_of_lt_of_le h.lt h'.le⟩

theorem passed_of_take? {k : TokenKind} {m : Text} (h : c.take? k = some (m, d)) : c.Passed d := by
  obtain ⟨hm, rfl⟩ := take?_eq_some_iff.mp h
  exact ⟨reaches_pass hm, offset_pass_lt hm⟩

theorem passed_of_atLevel? {l : Level} {op : Operator} (h : c.atLevel? l = some (op, d)) :
    c.Passed d :=
  passed_of_take? (atLevel?_eq_some_iff.mp h).2

theorem passed_of_beforeOperand? {op : Operator} (h : c.beforeOperand? = some (op, d)) :
    c.Passed d :=
  passed_of_take? (beforeOperand?_eq_some_iff.mp h).2

end Cursor

namespace Grammar

variable {σ β : Type} {A : Actions σ β}

/-! ### Invariants of a visit -/

theorem Result.Keeps.last {I : Due → σ → Cursor → Prop} {E : Cursor → Error → Prop} {due : Due}
    {r : Result σ (Statements β)} (h : r.Keeps I E due) : r.last.Keeps I E due :=
  h.andThen fun b kept => .of_ok b.last kept

theorem Invariant.visit {I : Due → σ → Cursor → Prop} {E : Cursor → Error → Prop}
    (inv : Invariant A I E) {a : Visit σ β} (h : I [] a.state a.cursor) :
    (a.run A).Keeps I E [] := by
  obtain ⟨routine, s, c⟩ := a
  cases routine with
  | statements => exact (inv.statements h).last
  | moreStatements done => exact (inv.moreStatements done h).last
  | expression l => exact inv.expression l h
  | operand l => exact inv.operand l h
  | chain l v => exact inv.rules.all.2.2.1 l c [] v s h
  | term => exact inv.rules.all.2.2.2.1 c [] s h
  | parenthesized => exact inv.rules.all.2.2.2.2 c [] s h
  | atom => exact inv.atom h

theorem invariant_reaches (A : Actions σ β) (c : Cursor) :
    Invariant A (fun _ _ d => c.Reaches d) (fun _ _ => True) where
  pass _ hm h := h.trans (Cursor.reaches_pass hm)
  name hm h := h.trans (Cursor.reaches_pass hm)
  symbol _ hm h := h.trans (Cursor.reaches_pass hm)
  apply _ h := ⟨h, fun _ _ => trivial⟩
  lacks _ _ := trivial
  invalidNumber _ _ _ := trivial

/-- No routine goes back. -/
theorem reaches_run (A : Actions σ β) (a : Visit σ β) : a.cursor.Reaches (a.run A).cursor := by
  obtain ⟨_, kept⟩ := ((invariant_reaches A a.cursor).visit (.refl a.cursor)).kept
  exact kept

theorem reaches_updated (A : Actions σ β) (v : β) (s : σ) (c : Cursor) :
    c.Reaches (updated A v s c).cursor := by
  have keeps : (updated A v s c).Keeps (fun _ _ d => c.Reaches d) (fun _ _ => True) [] :=
    (invariant_reaches A c).updated v (.refl c)
  obtain ⟨_, kept⟩ := keeps.kept
  exact kept

/-- Every lookup and every application belongs to a byte of its own. -/
theorem invariant_events (A : Actions σ β) (n : Nat) : Invariant A.logged
    (fun due s c => n + due.length + s.2.length ≤ c.offset) (fun _ _ => True) where
  pass {due s c k m} _ hm h := by
    have := Cursor.offset_pass_lt hm
    omega
  name {due s c m} hm h := by
    have := Cursor.offset_pass_lt hm
    show n + due.length + (s.2.length + 1) ≤ _
    omega
  symbol {due s c k op} _ hm h := by
    have := Cursor.offset_pass_lt hm
    rw [List.length_cons]
    omega
  apply {due s c op k vs} _ h := by
    rw [List.length_cons] at h
    refine ⟨?_, fun _ _ => trivial⟩
    show n + due.length + (s.2.length + 1) ≤ _
    omega
  lacks _ _ := trivial
  invalidNumber _ _ _ := trivial

theorem length_events_le (A : Actions σ β) (a : Visit (σ × List Event) β) (fresh : a.state.2 = []) :
    a.cursor.offset + (a.run A.logged).state.2.length ≤ (a.run A.logged).cursor.offset := by
  have start : a.cursor.offset + ([] : Due).length + a.state.2.length ≤ a.cursor.offset := by
    simp [fresh]
  obtain ⟨left, kept⟩ := ((invariant_events A a.cursor.offset).visit start).kept
  omega

/-- A log changes nothing that a routine ends in. -/
theorem Visit.run_eq_logged (A : Actions σ β) (a : Visit σ β) (log : List Event) :
    let r := (⟨a.routine, (a.state, log), a.cursor⟩ : Visit (σ × List Event) β).run A.logged
    a.run A = ⟨r.outcome, r.state.1, r.cursor⟩ := by
  intro r
  have ends : (Simulation.ofLogged A).lockstep.Ends (fun _ => Eq) () r (a.run A) := by
    obtain ⟨routine, s, c⟩ := a
    have rules := (Simulation.ofLogged A).lockstep.rules.all
    have separates := (Simulation.ofLogged A).separates
    cases routine with
    | statements =>
      have all : (Simulation.ofLogged A).lockstep.Ends _ ()
          (Grammar.statements A.logged (s, log) c) (Grammar.statements A s c) :=
        Lockstep.statements separates rfl rfl
      exact all.andThen fun _ _ _ _ hs hc hv => .ok hs hc hv
    | moreStatements done =>
      have more : (Simulation.ofLogged A).lockstep.Ends _ ()
          (Grammar.moreStatements A.logged done (s, log) c) (Grammar.moreStatements A done s c) :=
        Lockstep.moreStatements separates rfl rfl rfl
      exact more.andThen fun _ _ _ _ hs hc hv => .ok hs hc hv
    | expression l => exact rules.1 l c () _ s c rfl rfl
    | operand l => exact rules.2.1 l c () _ s c rfl rfl
    | chain l left => exact rules.2.2.1 l c () left left _ s c rfl rfl rfl
    | term => exact rules.2.2.2.1 c () _ s c rfl rfl
    | parenthesized => exact rules.2.2.2.2 c () _ s c rfl rfl
    | atom => exact Lockstep.atom rfl rfl
  obtain ⟨_, -, state, ⟨_, cursor⟩, alike⟩ := ends.alike fun _ _ => id
  exact (Result.eq_of_alike (r := ⟨_, _, _⟩) state cursor alike).symm

end Grammar

end Calculator
