import Calculator.Proofs.Session.Spacing
import Calculator.Proofs.Text.Cut

/-!
# The console line by line

`Console.repl` asks for one line after the other and does for each what `Console.run` does
(`repl_dialogue`). Only the session goes on from one line to the next.
-/

namespace Calculator.Console

open Session

/-! ### One line -/

theorem trimEnd_eq_nil_iff {line : Text} : Text.trimEnd line = [] ↔ line.all Text.isBlank := by
  rw [List.all_eq_true]
  exact List.rdropWhile_eq_nil_iff

theorem heard_of_blank {line : Text} (h : line.all Text.isBlank) (s : Session) : heard s line = s :=
  if_pos h

theorem heard_of_not_blank {line : Text} (h : ¬ line.all Text.isBlank) (s : Session) :
    heard s line = (s.evaluate (Text.trimEnd line)).2 :=
  if_neg h

/-- A line that is not blank is answered as a text of its own. -/
theorem run_trimEnd {line : Text} (h : ¬ line.all Text.isBlank) (s : Session) :
    (run s (Text.trimEnd line) inputName).2 = (⟨shown s line, reported s line⟩, heard s line) := by
  unfold run shown reported heard
  rw [if_neg h, if_neg h, if_neg h]
  generalize s.evaluate (Text.trimEnd line) = r
  obtain ⟨e | v, s'⟩ := r <;> rfl

theorem answer_eq (s : Session) (line : Text) :
    answer s line = (⟨shown s line, reported s line⟩, heard s line) := by
  by_cases h : line.all Text.isBlank
  · unfold answer shown reported heard
    rw [if_pos (trimEnd_eq_nil_iff.mpr h), if_pos h, if_pos h, if_pos h]
    rfl
  · rw [← run_trimEnd h]
    unfold answer
    rw [if_neg fun empty => h (trimEnd_eq_nil_iff.mp empty)]

/-! ### All lines -/

theorem exchanges_cons (s : Session) (line : Text) (lines : List Text) :
    exchanges s (line :: lines) = (s, line) :: exchanges (heard s line) lines := by
  unfold exchanges
  rw [List.scanl_cons]
  rfl

theorem readable_of_none {bytes : List UInt8} (h : Text.ofUtf8? bytes = none)
    (rest : List (List UInt8)) : readable (bytes :: rest) = [] := by
  rw [readable, h]

theorem readable_of_some {bytes : List UInt8} {line : Text} (h : Text.ofUtf8? bytes = some line)
    (rest : List (List UInt8)) : readable (bytes :: rest) = line :: readable rest := by
  rw [readable, h]

theorem replLines_of_some {bytes : List UInt8} {line : Text} (h : Text.ofUtf8? bytes = some line)
    (s : Session) (rest : List (List UInt8)) :
    replLines s (bytes :: rest) = { replLines (heard s line) rest with
      output := prompt ++ ⟨shown s line, reported s line⟩ ++
        (replLines (heard s line) rest).output } := by
  rw [replLines, h]
  dsimp only
  rw [answer_eq]

/-- What the console writes, the session that it leaves and whether it has read all lines. -/
theorem replLines_eq (s : Session) (pieces : List (List UInt8)) :
    replLines s pieces =
      ⟨⟨(exchanges s (readable pieces)).flatMap (fun p => prompt.out ++ shown p.1 p.2) ++ prompt.out,
        (exchanges s (readable pieces)).flatMap fun p => reported p.1 p.2⟩,
      (readable pieces).foldl heard s,
      !pieces.all fun bytes => (Text.ofUtf8? bytes).isSome⟩ := by
  induction pieces generalizing s with
  | nil => rfl
  | cons bytes rest ih =>
    cases read : Text.ofUtf8? bytes with
    | none =>
      rw [readable_of_none read, replLines, read, List.all_cons, read]
      rfl
    | some line =>
      rw [readable_of_some read, exchanges_cons, replLines_of_some read, ih (heard s line),
        List.flatMap_cons, List.flatMap_cons, List.append_assoc, List.all_cons, read]
      rfl

theorem foldl_heard (s : Session) (lines : List Text) : lines.foldl heard s =
    ((lines.filter fun line => !line.all Text.isBlank).map Text.trimEnd).foldl
      (fun s source => (s.evaluate source).2) s := by
  induction lines generalizing s with
  | nil => rfl
  | cons line lines ih =>
    rw [List.foldl_cons, ih]
    by_cases h : line.all Text.isBlank
    · rw [heard_of_blank h, List.filter_cons_of_neg (by simp [h])]
    · rw [heard_of_not_blank h, List.filter_cons_of_pos (by simp [h])]
      rfl

/-! ### Blanks at the end of a line -/

theorem beside_trimEnd (s : Session) (line : Text) :
    Beside line (Text.trimEnd line) .beforeOperand (.start line) (.start (Text.trimEnd line)) := by
  obtain ⟨tokens, respaced, same⟩ := respaced_self s line
  have trimmed : Text.trim (Text.trimEnd line) = Text.trim line :=
    Text.trimEnd_dropBlank_congr (Text.trimEnd_trimEnd line)
  have aligned : s.Respaced line (Text.trimEnd line) := ⟨tokens, respaced, trimmed.trans same⟩
  refine ⟨⟨_, _, .start line, .start (Text.trimEnd line), ?_⟩, aligned.aligned⟩
  rw [Text.ink_of_allBlank (Text.allBlank_leadingBlank line),
    Text.ink_of_allBlank (Text.allBlank_leadingBlank (Text.trimEnd line))]

theorem evaluate_trimEnd (s : Session) (line : Text) :
    (s.evaluate line).2 = (s.evaluate (Text.trimEnd line)).2 ∧
      ∀ v, (s.evaluate line).1 = .ok v ↔ (s.evaluate (Text.trimEnd line)).1 = .ok v := by
  obtain ⟨state, alike⟩ :=
    (readAlike_beside line (Text.trimEnd line)).evaluate s (beside_trimEnd s line)
  refine ⟨state.symm, fun v => ?_⟩
  generalize (s.evaluate line).1 = r at alike ⊢
  generalize (s.evaluate (Text.trimEnd line)).1 = q at alike ⊢
  rcases r with e | u <;> rcases q with e' | u'
  · exact ⟨fun h => (nomatch h), fun h => (nomatch h)⟩
  · exact alike.elim
  · exact alike.elim
  · obtain rfl : u = u' := alike
    exact Iff.rfl

/-! ### The whole input -/

/-- The console cuts its input behind each line feed and goes on to the first line that is not UTF-8.
Each line before it that is not blank is evaluated in the session that the lines before have left,
without the blanks at its end, and answered as a text of its own. -/
theorem repl_dialogue (s : Session) (input : List UInt8) :
    let pieces := Text.byteLines input
    let lines := readable pieces
    let t := repl s input
    IsCut 0x0A input pieces ∧
    t.session = ((lines.filter fun line => !line.all Text.isBlank).map Text.trimEnd).foldl
      (fun s source => (s.evaluate source).2) s ∧
    t.output.out = (exchanges s lines).flatMap (fun p => ['>', ' '] ++ shown p.1 p.2) ++ ['>', ' '] ∧
    t.output.err = (exchanges s lines).flatMap (fun p => reported p.1 p.2) ∧
    (t.malformed = false ↔ ∀ piece ∈ pieces, (Text.ofUtf8? piece).isSome) ∧
    ∀ (s : Session) (line : Text), ¬ line.all Text.isBlank →
      (run s (Text.trimEnd line) inputName).2 = (⟨shown s line, reported s line⟩, heard s line) ∧
      (s.evaluate line).2 = heard s line ∧
      ∀ v, (s.evaluate line).1 = .ok v ↔ (s.evaluate (Text.trimEnd line)).1 = .ok v := by
  intro pieces lines t
  have whole : t = _ := replLines_eq s pieces
  refine ⟨isCut_iff.mpr rfl, ?_, ?_, ?_, ?_, fun s line some => ⟨run_trimEnd some s, ?_, ?_⟩⟩
  · rw [whole]
    exact foldl_heard s lines
  · rw [whole]
    rfl
  · rw [whole]
  · rw [whole, Bool.not_eq_false', List.all_eq_true]
  · rw [heard_of_not_blank some]
    exact (evaluate_trimEnd s line).1
  · exact (evaluate_trimEnd s line).2

end Calculator.Console
