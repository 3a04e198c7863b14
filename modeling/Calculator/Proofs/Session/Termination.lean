import Calculator.Proofs.Grammar.Visit
import Calculator.Session

/-!
# Evaluation ends

Wherever a routine of the grammar begins in a text, it ends after a number of calls that is linear
in the bytes of the text (`run_terminates`).
-/

namespace Calculator.Session

open Grammar

variable {front source : Text} {c : Cursor}

/-- A routine that is entered anywhere in a text, in any session, ends: the calls nested in it are
few, none of them goes back, only those of tighter routines stand where it was entered, and every
lookup and every application has a byte of its own. -/
theorem run_terminates (place : c.Behind front source) (routine : Routine Binding) (s : Session)
    {depth : Nat} (enough : 33 * (Text.extent source + 1) ≤ depth) :
    let a : Visit Session Binding := ⟨routine, s, c⟩
    let logged := (⟨routine, (s, []), c⟩ : Visit (Session × List Event) Binding).run actions.logged
    (∃ nested, visit actions depth a [] = some (a.run actions, nested ++ [a]) ∧
      nested.length < 64 * (Text.extent source + 1) ∧
      (nested ++ [a]).Pairwise (fun later earlier => earlier.cursor.offset ≤ later.cursor.offset) ∧
      (∀ b ∈ nested ++ [a], b.cursor.offset ≤ (a.run actions).cursor.offset) ∧
      ∀ b ∈ nested, b.routine.tightness ≤ routine.tightness → c.offset < b.cursor.offset) ∧
    (a.run actions).cursor.offset ≤ Text.extent source ∧
    a.run actions = ⟨logged.outcome, logged.state.1, logged.cursor⟩ ∧
    logged.state.2.length ≤ Text.extent source := by
  intro a logged
  have bytes := place.total
  have reaches := reaches_run actions a
  have ends : (a.run actions).cursor.offset ≤ Text.extent source := by
    have total : (a.run actions).cursor.offset + Text.extent (a.run actions).cursor.rest =
      c.offset + Text.extent c.rest := reaches.offset
    omega
  have same : a.run actions = ⟨logged.outcome, logged.state.1, logged.cursor⟩ :=
    a.run_eq_logged actions []
  have depthEnough : a.depth < depth := by
    show 33 * Text.extent c.rest + (32 - routine.tightness) < depth
    omega
  obtain ⟨nested, visited, trail, affords⟩ := visit_entered (A := actions) depthEnough
  refine ⟨⟨nested, visited [], ?_, ?_, ?_, fun b hb => (trail.part b hb).later⟩, ends, same, ?_⟩
  · have paid := affords.le
    show nested.length < 64 * (Text.extent source + 1)
    omega
  · refine List.pairwise_append.mpr ⟨trail.sorted, List.pairwise_singleton _ _, fun b hb d hd => ?_⟩
    obtain rfl := List.mem_singleton.mp hd
    exact (trail.within b hb).1
  · refine List.forall_mem_append.mpr ⟨fun b hb => (trail.within b hb).2, ?_⟩
    exact List.forall_mem_singleton.mpr reaches.le
  · have count : c.offset + logged.state.2.length ≤ logged.cursor.offset :=
      length_events_le actions ⟨routine, (s, []), c⟩ rfl
    have stop : logged.cursor.offset = (a.run actions).cursor.offset := by rw [same]
    omega

/-- A text that breaks off within parentheses. -/
theorem run_terminates_unclosed :
    let source := "((x = 1,".toList
    let a : Visit Session Binding := ⟨.statements, .initial, .start source⟩
    let logged := (⟨.statements, (.initial, []), .start source⟩ :
      Visit (Session × List Event) Binding).run actions.logged
    (∃ nested, visit actions 297 a [] = some (a.run actions, nested ++ [a]) ∧
      nested.length < 64 * (Text.extent source + 1) ∧
      (nested ++ [a]).Pairwise (fun later earlier => earlier.cursor.offset ≤ later.cursor.offset) ∧
      (∀ b ∈ nested ++ [a], b.cursor.offset ≤ (a.run actions).cursor.offset) ∧
      ∀ b ∈ nested, b.routine.tightness ≤ 0 → (Cursor.start source).offset < b.cursor.offset) ∧
    (a.run actions).cursor.offset ≤ Text.extent source ∧
    a.run actions = ⟨logged.outcome, logged.state.1, logged.cursor⟩ ∧
    logged.state.2.length ≤ Text.extent source :=
  run_terminates (.start "((x = 1,".toList) .statements .initial (by decide)

end Calculator.Session
