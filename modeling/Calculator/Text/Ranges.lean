/-!
# Ranges of code points

A class of characters is a list of closed ranges of code points, ascending and apart. The search
for a code point ends at the first range beyond it; `inRanges_iff` shows that it misses no range.
-/

namespace Calculator.Text

def inRanges : List (Nat × Nat) → Nat → Bool
  | [], _ => false
  | (first, last) :: rest, n => first ≤ n && (n ≤ last || inRanges rest n)

theorem inRanges_cons_of_lt {r : Nat × Nat} {rest : List (Nat × Nat)} {n : Nat} (h : n < r.1) :
    inRanges (r :: rest) n = false := by
  simp only [inRanges, Bool.and_eq_false_iff, decide_eq_false_iff_not]
  omega

/-- No range is empty, and between two neighbours at least one code point is left out. -/
def ascending : List (Nat × Nat) → Bool
  | [] => true
  | [r] => r.1 ≤ r.2
  | r :: s :: rest => r.1 ≤ r.2 && r.2 + 1 < s.1 && ascending (s :: rest)

theorem ascending_of_cons {r : Nat × Nat} {rest : List (Nat × Nat)}
    (h : ascending (r :: rest)) : ascending rest := by
  cases rest with
  | nil => rfl
  | cons s rest => simp only [ascending, Bool.and_eq_true] at h; exact h.2

theorem le_first_of_ascending {r s : Nat × Nat} {rest : List (Nat × Nat)}
    (h : ascending (r :: rest)) (hs : s ∈ rest) : r.1 ≤ s.1 := by
  induction rest generalizing r with
  | nil => cases hs
  | cons t rest ih =>
    have ht := ascending_of_cons h
    simp only [ascending, Bool.and_eq_true, decide_eq_true_eq] at h
    rcases List.mem_cons.1 hs with rfl | hs
    · omega
    · have := ih ht hs
      omega

theorem inRanges_iff {ranges : List (Nat × Nat)} (h : ascending ranges) {n : Nat} :
    inRanges ranges n ↔ ∃ r ∈ ranges, r.1 ≤ n ∧ n ≤ r.2 := by
  induction ranges with
  | nil => simp [inRanges]
  | cons r rest ih =>
    have hle : (∃ s ∈ rest, s.1 ≤ n ∧ n ≤ s.2) → r.1 ≤ n := fun ⟨_, hs, hn⟩ =>
      Nat.le_trans (le_first_of_ascending h hs) hn.1
    simp only [inRanges, Bool.and_eq_true, Bool.or_eq_true, decide_eq_true_eq,
      ih (ascending_of_cons h)]
    grind

end Calculator.Text
