import Calculator.Proofs.Grammar.Invariant
import Calculator.Session.Reachable

/-!
# Constants stay fixed

In every reachable session the six constants are bound to fixed values and every other name that is
declared is bound to a cell. Whether a name is a variable can therefore be read off the text.
-/

namespace Calculator

namespace Environment

structure Sound (e : Environment) : Prop where
  isVariable : ∀ {name b}, e.find? name = some b → b.isVariable = !isConstant name
  declared : ∀ {name}, isConstant name → (e.find? name).isSome

theorem lookup_fixed (entries : List (Text × Float)) (name : Text) :
    (entries.map fun (n, v) => (n, Binding.fixed v)).lookup name =
      (entries.find? (·.1 = name)).map fun p => .fixed p.2 := by
  induction entries with
  | nil => rfl
  | cons entry rest ih =>
    rw [List.map_cons, List.lookup_cons, List.find?_cons, ih]
    by_cases h : entry.1 = name
    · simp [h]
    · simp [h, beq_eq_false_iff_ne.mpr (Ne.symm h)]

theorem sound_initial : initial.Sound where
  isVariable {name b} h := by
    simp only [find?, initial, lookup_fixed, Option.map_eq_some_iff] at h
    obtain ⟨p, hp, rfl⟩ := h
    have found := List.find?_some hp
    have hc : isConstant name := List.any_eq_true.mpr ⟨p, List.mem_of_find?_eq_some hp, found⟩
    simp [hc, Binding.isVariable]
  declared {name} h := by
    simp only [find?, initial, lookup_fixed, Option.isSome_map]
    obtain ⟨p, hp, hn⟩ := List.any_eq_true.mp h
    exact List.find?_isSome.mpr ⟨p, hp, hn⟩

theorem Sound.lookup {e : Environment} (h : e.Sound) (name : Text) (s : Store) :
    (e.lookup name s).1.isVariable = !isConstant name ∧ (e.lookup name s).2.1.Sound := by
  unfold Environment.lookup
  cases hf : e.find? name with
  | some b => exact ⟨h.isVariable hf, h⟩
  | none =>
    have hn : isConstant name = false := by
      rw [← Bool.not_eq_true]
      intro hc
      simpa [hf] using h.declared hc
    have other {m : Text} (hm : m ≠ name) (cell : Cell) :
        (⟨(name, .cell cell) :: e.entries⟩ : Environment).find? m = e.find? m := by
      simp [find?, List.lookup_cons, beq_eq_false_iff_ne.mpr hm]
    refine ⟨by simp [hn, Binding.isVariable], fun {m b} hb => ?_, fun {m} hc => ?_⟩
    · by_cases hm : m = name
      · subst hm
        simp only [find?, List.lookup_cons, beq_self_eq_true] at hb
        rw [← Option.some.inj hb, hn]
        rfl
      · exact h.isVariable ((other hm _).symm.trans hb)
    · have hm : m ≠ name := by
        rintro rfl
        exact absurd (hn.symm.trans hc) Bool.false_ne_true
      rw [other hm]
      exact h.declared hc

end Environment

namespace Session

/-- A numeral has the same value in any two sessions. -/
theorem number_alike {R : Binding → Binding → Prop} (fixed : ∀ v, R (.fixed v) (.fixed v))
    (m : Text) : (actions.number m = none ∧ actions.number m = none) ∨
      ∃ b b', actions.number m = some b ∧ actions.number m = some b' ∧ R b b' := by
  cases hm : actions.number m with
  | none => exact .inl ⟨rfl, rfl⟩
  | some b =>
    obtain ⟨d, -, rfl⟩ := Option.map_eq_some_iff.mp hm
    exact .inr ⟨_, _, rfl, rfl, fixed _⟩

/-- What is kept by looking up and by applying is kept by evaluating. -/
theorem evaluate_invariant {I : Session → Prop} (lookup : ∀ {s} m, I s → I (s.lookup m).2)
    (apply : ∀ {op s} {operands : List Binding}, operands.length = op.arity → I s →
      I (s.apply op operands).2)
    {s : Session} (h : I s) (source : Text) : I (s.evaluate source).2 :=
  (Grammar.statements_invariant (A := actions) (F := fun _ => True) (fun _ _ => trivial)
    (fun m _ => lookup m) (fun _ _ _ _ hl hs => ⟨apply hl hs, fun _ _ => trivial⟩)
    h (.start source)).1

def Sound (s : Session) : Prop :=
  s.environment.Sound

theorem Sound.lookup {s : Session} (h : s.Sound) (name : Text) :
    (s.lookup name).1.isVariable = !Environment.isConstant name ∧ (s.lookup name).2.Sound :=
  Environment.Sound.lookup h name s.memory.store

theorem Sound.apply {s : Session} (h : s.Sound) (op : Operator) (operands : List Binding) :
    (s.apply op operands).2.Sound := h

theorem Sound.evaluate {s : Session} (h : s.Sound) (source : Text) : (s.evaluate source).2.Sound :=
  evaluate_invariant (fun m hs => (hs.lookup m).2) (fun _ hs => hs.apply _ _) h source

theorem Sound.set {s : Session} (h : s.Sound) (name : Text) (v : Float) : (s.set name v).2.Sound := by
  have kept := (h.lookup name).2
  unfold Session.set
  dsimp only
  split
  · exact kept
  · exact kept

theorem Reachable.sound {s : Session} (h : s.Reachable) : s.Sound := by
  induction h with
  | initial => exact Environment.sound_initial
  | evaluate source _ ih => exact ih.evaluate source
  | set name v _ ih => exact ih.set name v

end Session

end Calculator
