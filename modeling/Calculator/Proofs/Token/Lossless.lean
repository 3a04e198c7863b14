import Calculator.Proofs.Token.Operators
import Calculator.Proofs.Token.Position
import Calculator.Token.Request

/-!
# Nothing is lost between tokens

Whatever a cursor is asked for, it stays at a place of its text that is not a blank, and all that it
leaves behind are the tokens it has handed out and blanks (`Cursor.serve_lossless`).
-/

namespace Calculator

namespace Text.Consists

variable {ms ns : List Text} {t u : Text}

theorem append (h : Consists ms t) (h' : Consists ns u) : Consists (ms ++ ns) (t ++ u) := by
  induction h with
  | nil => exact h'
  | cons blank _ ih =>
    rw [List.append_assoc]
    exact .cons blank ih

theorem singleton {m blank : Text} (h : Token.AllBlank blank) : Consists [m] (m ++ blank) := by
  have one := cons (m := m) h .nil
  rwa [List.append_nil] at one

end Text.Consists

namespace Cursor

variable {c d : Cursor} {source : Text} {ms : List Text}

theorem takeIf?_eq_some_iff {k : TokenKind} {accept : Text → Bool} {m : Text} :
    c.takeIf? k accept = some (m, d) ↔ k.longest? c.rest = some m ∧ accept m ∧ d = c.pass k m := by
  simp only [takeIf?, Option.map_eq_some_iff, Option.filter_eq_some_iff, Prod.mk.injEq]
  constructor
  · rintro ⟨m', ⟨hm, accepted⟩, rfl, rfl⟩
    exact ⟨hm, accepted, rfl⟩
  · rintro ⟨hm, accepted, rfl⟩
    exact ⟨m, ⟨hm, accepted⟩, rfl, rfl⟩

/-- A request is refused and moves nothing, or it passes the longest token and the blanks behind
it. -/
theorem answer_cases (c : Cursor) (r : Request) :
    (c.answer r = (none, c) ∧ ∀ m, r.kind.longest? c.rest = some m → ¬ r.accept m) ∨
      ∃ m, r.kind.longest? c.rest = some m ∧ r.accept m ∧
        c.answer r = (some m, c.pass r.kind m) := by
  unfold answer
  cases taken : c.takeIf? r.kind r.accept with
  | none =>
    refine .inl ⟨rfl, fun m hm accepted => ?_⟩
    cases taken.symm.trans (takeIf?_eq_some_iff.mpr ⟨hm, accepted, rfl⟩)
  | some p =>
    obtain ⟨m, d⟩ := p
    obtain ⟨hm, accepted, rfl⟩ := takeIf?_eq_some_iff.mp taken
    exact .inr ⟨m, hm, accepted, rfl⟩

/-- In front of the cursor stand blanks and then the tokens that have been handed out. -/
def Served (source : Text) (ms : List Text) (c : Cursor) : Prop :=
  ∃ spaced, c.Behind (Text.leadingBlank source ++ spaced) source ∧ Text.Consists ms spaced

theorem served_start (source : Text) : (start source).Served source [] := by
  refine ⟨[], ?_, .nil⟩
  rw [List.append_nil]
  exact .start source

theorem Served.answer (h : c.Served source ms) (r : Request) :
    (c.answer r).2.Served source (ms ++ (c.answer r).1.toList) := by
  rcases c.answer_cases r with ⟨refused, -⟩ | ⟨m, hm, -, passed⟩
  · rw [refused]
    simpa using h
  · obtain ⟨spaced, behind, consists⟩ := h
    rw [passed]
    refine ⟨spaced ++ (m ++ Text.leadingBlank (c.rest.drop m.length)), ?_, ?_⟩
    · simpa only [List.append_assoc] using behind.pass hm
    · exact consists.append (.singleton (Text.allBlank_leadingBlank _))

theorem Served.serve (h : c.Served source ms) (requests : List Request) :
    (c.serve requests).2.Served source (ms ++ (c.serve requests).1) := by
  induction requests generalizing c ms with
  | nil => simpa [Cursor.serve] using h
  | cons r rest ih => simpa [Cursor.serve] using ih (h.answer r)

/-- Behind any requests, granted or refused, a cursor stands between two characters of its text,
at the end or before one that is not a blank. The text in front of it consists of blanks and of the
tokens that have been handed out with blanks behind them. The next request is refused and moves
nothing, or passes a token, which is not empty, with all blanks behind it. -/
theorem serve_lossless (source : Text) (requests : List Request) :
    let ms := ((start source).serve requests).1
    let c := ((start source).serve requests).2
    (∃ front spaced, source = front ++ c.rest ∧ c.offset = Text.extent front ∧
      front = Text.leadingBlank source ++ spaced ∧ Text.Consists ms spaced) ∧
    c.offset ≤ Text.extent source ∧ (∀ x rest, c.rest = x :: rest → ¬ Text.isBlank x) ∧
    (c.atEnd ↔ c.rest = []) ∧ (c.atEnd ↔ Text.extent source ≤ c.offset) ∧
    ∀ r, match c.answer r with
      | (none, d) => d = c ∧ ∀ m, r.kind.IsLongest c.rest m → ¬ r.accept m
      | (some m, d) => r.kind.IsLongest c.rest m ∧ r.accept m ∧ m ≠ [] ∧
        ∃ blank, Token.AllBlank blank ∧ c.rest = m ++ blank ++ d.rest ∧
          d.offset = c.offset + Text.extent m + Text.extent blank ∧
          ∀ x rest, d.rest = x :: rest → ¬ Text.isBlank x := by
  intro ms c
  obtain ⟨spaced, behind, consists⟩ := (served_start source).serve requests
  have total : c.offset + Text.extent c.rest = Text.extent source := behind.total
  have atEnd : c.atEnd ↔ c.rest = [] := List.isEmpty_iff
  refine ⟨⟨_, spaced, behind.whole, behind.offset, rfl, consists⟩, by omega,
    Text.visible_of_dropBlank behind.visible, atEnd, ?_, fun r => ?_⟩
  · rw [atEnd]
    constructor
    · intro ended
      rw [ended, Text.extent_nil] at total
      omega
    · intro last
      by_contra more
      have := Text.extent_pos more
      omega
  · rcases c.answer_cases r with ⟨refused, missing⟩ | ⟨m, hm, accepted, passed⟩
    · rw [refused]
      exact ⟨rfl, fun m longest => missing m (TokenKind.longest?_eq_some_iff.mpr longest)⟩
    · rw [passed]
      exact ⟨TokenKind.longest?_eq_some_iff.mp hm, accepted, TokenKind.longest?_ne_nil hm, _,
        Text.allBlank_leadingBlank _, rest_of_longest? hm, rfl,
        Text.visible_of_dropBlank (Text.dropBlank_dropBlank _)⟩

/-- A longer token is not cut for a request that would accept its front. -/
example : (start " += 1".toList).serve
    [⟨.operator, (· == "+".toList)⟩, ⟨.operator, (· == "+=".toList)⟩] =
      (["+=".toList], ⟨4, "1".toList, [⟨.operator, "+=".toList, " ".toList⟩]⟩) := by
  decide

end Cursor

end Calculator
