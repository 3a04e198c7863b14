import Calculator.Fault
import Calculator.Operator.Basic
import Calculator.Token.Cursor

/-!
# Actions and results of the grammar

The rules of the grammar read a text once and build no tree: each rule hands what it has read to
the `Actions` it is given, which work on a state of type `σ` and return values of type `β`. A rule
ends in a `Result`.
-/

namespace Calculator.Grammar

structure Actions (σ β : Type) where
  /-- The value of a numeral, `none` if it has none. -/
  number : Text → Option β
  name : Text → σ → β × σ
  /-- An update may stand behind a name with such a value. -/
  isVariable : β → Bool
  apply : Operator → Nat → List β → σ → Except Fault β × σ

/-- Where a rule stopped, with the state it left behind also after an error. -/
structure Result (σ β : Type) where
  outcome : Except Error β
  state : σ
  cursor : Cursor

variable {σ β γ : Type}

namespace Result

def ok (v : β) (s : σ) (c : Cursor) : Result σ β :=
  ⟨.ok v, s, c⟩

def fail (fault : Fault) (offset : Nat) (s : σ) (c : Cursor) : Result σ β :=
  ⟨.error ⟨fault, offset⟩, s, c⟩

/-- Goes on where `r` stopped, unless it stopped at an error. -/
def andThen (r : Result σ β) (f : β → σ → Cursor → Result σ γ) : Result σ γ :=
  match r.outcome with
  | .ok v => f v r.state r.cursor
  | .error e => ⟨.error e, r.state, r.cursor⟩

@[simp] theorem ok_andThen (v : β) (s : σ) (c : Cursor) (f : β → σ → Cursor → Result σ γ) :
    (ok v s c).andThen f = f v s c := rfl

@[simp] theorem fail_andThen (fault : Fault) (n : Nat) (s : σ) (c : Cursor)
    (f : β → σ → Cursor → Result σ γ) :
    (fail fault n s c : Result σ β).andThen f = fail fault n s c := rfl

end Result

/-- A result whose cursor is not behind `c`. -/
abbrev Reached (σ β : Type) (c : Cursor) :=
  { r : Result σ β // r.cursor.remaining ≤ c.remaining }

namespace Reached

def ok (v : β) (s : σ) (c : Cursor) : Reached σ β c :=
  ⟨.ok v s c, Nat.le_refl _⟩

def fail (fault : Fault) (offset : Nat) (s : σ) (c : Cursor) : Reached σ β c :=
  ⟨.fail fault offset s c, Nat.le_refl _⟩

/-- `Result.andThen`; the next rule learns that its cursor is not behind `c`. -/
def andThen {c : Cursor} (r : Reached σ β c)
    (f : β → σ → (d : Cursor) → d.remaining ≤ c.remaining → Reached σ γ d) : Reached σ γ c :=
  match r with
  | ⟨⟨.ok v, s, d⟩, h⟩ => ⟨(f v s d h).val, Nat.le_trans (f v s d h).property h⟩
  | ⟨⟨.error e, s, d⟩, h⟩ => ⟨⟨.error e, s, d⟩, h⟩

def since {c d : Cursor} (h : d.remaining ≤ c.remaining) (r : Reached σ β d) : Reached σ β c :=
  ⟨r.val, Nat.le_trans r.property h⟩

@[simp] theorem val_ok (v : β) (s : σ) (c : Cursor) : (ok v s c).val = .ok v s c := rfl

@[simp] theorem val_fail (fault : Fault) (n : Nat) (s : σ) (c : Cursor) :
    (fail fault n s c : Reached σ β c).val = .fail fault n s c := rfl

@[simp] theorem val_since {c d : Cursor} (h : d.remaining ≤ c.remaining) (r : Reached σ β d) :
    (r.since h).val = r.val := rfl

theorem val_andThen {c : Cursor} (r : Reached σ β c)
    (f : β → σ → (d : Cursor) → d.remaining ≤ c.remaining → Reached σ γ d)
    (g : β → σ → Cursor → Result σ γ) (h : ∀ v s d hd, (f v s d hd).val = g v s d) :
    (r.andThen f).val = r.val.andThen g := by
  obtain ⟨⟨outcome, s, d⟩, hr⟩ := r
  cases outcome with
  | ok v => exact h v s d hr
  | error e => rfl

end Reached

end Calculator.Grammar
