import Calculator.Console.Dialogue

/-!
# Pieces

`cutAfter` is the one way to cut a list so that its pieces end at their first separators
(`isCut_iff`). The separators in front of a piece are as many as the pieces there
(`IsCut.count_flatten`).
-/

namespace Calculator

variable {α : Type} {separator : α} {t u rest : List α} {pieces : List (List α)}

namespace IsCut

theorem nil : IsCut separator [] [] :=
  ⟨rfl, fun _ h => (nomatch h), fun _ h => (nomatch h)⟩

theorem singleton (h : t ≠ []) (outside : separator ∉ t) : IsCut separator t [t] where
  whole := List.flatten_singleton
  inside := List.forall_mem_singleton.mpr ⟨h, fun last => outside (List.dropLast_subset t last)⟩
  ended _ h := nomatch h

theorem cons (outside : separator ∉ u) (h : IsCut separator rest pieces) :
    IsCut separator (u ++ separator :: rest) ((u ++ [separator]) :: pieces) where
  whole := by rw [List.flatten_cons, h.whole, List.append_assoc, List.singleton_append]
  inside := List.forall_mem_cons.mpr ⟨⟨by simp, by simpa using outside⟩, h.inside⟩
  ended := by
    cases pieces with
    | nil => exact fun _ h => nomatch h
    | cons piece pieces => exact List.forall_mem_cons.mpr ⟨by simp, h.ended⟩

/-- Behind the first piece. -/
theorem tail {piece : List α} (h : IsCut separator t (piece :: pieces)) :
    IsCut separator pieces.flatten pieces where
  whole := rfl
  inside := (List.forall_mem_cons.mp h.inside).2
  ended := by
    cases pieces with
    | nil => exact fun _ h => nomatch h
    | cons next pieces => exact (List.forall_mem_cons.mp h.ended).2

end IsCut

variable [DecidableEq α]

theorem count_of_not_mem_dropLast {piece : List α} (inside : separator ∉ piece.dropLast) :
    piece.count separator = if piece.getLast? = some separator then 1 else 0 := by
  rcases List.eq_nil_or_concat piece with rfl | ⟨front, last, rfl⟩
  · rfl
  · rw [List.concat_eq_append, List.dropLast_concat] at inside
    simp [List.count_eq_zero.mpr inside, List.count_singleton]

/-- Each of the pieces in front of another one has one separator. -/
theorem IsCut.count_flatten {piece : List α} {earlier later : List (List α)}
    (h : IsCut separator t (earlier ++ piece :: later)) :
    earlier.flatten.count separator = earlier.length := by
  have one : ∀ p ∈ earlier, p.count separator = 1 := by
    intro p hp
    have ended := h.ended p (by
      rw [List.dropLast_append_of_ne_nil (List.cons_ne_nil piece later)]
      exact List.mem_append_left _ hp)
    rw [count_of_not_mem_dropLast (h.inside p (List.mem_append_left _ hp)).2, if_pos ended]
  rw [List.count_flatten, List.map_eq_replicate_iff.mpr one, List.sum_replicate_nat, Nat.mul_one]

theorem cutAfter_of_not_mem (h : t ≠ []) (outside : separator ∉ t) : cutAfter separator t = [t] := by
  induction t with
  | nil => exact absurd rfl h
  | cons a t ih =>
    obtain ⟨ne, outside⟩ := not_or.mp fun found => outside (List.mem_cons.mpr found)
    rw [cutAfter, if_neg (Ne.symm ne)]
    cases t with
    | nil => rfl
    | cons b t => rw [ih (List.cons_ne_nil b t) outside]

theorem cutAfter_append_cons (outside : separator ∉ u) (rest : List α) :
    cutAfter separator (u ++ separator :: rest) =
      (u ++ [separator]) :: cutAfter separator rest := by
  induction u with
  | nil => rw [List.nil_append, cutAfter, if_pos rfl, List.nil_append]
  | cons a u ih =>
    obtain ⟨ne, outside⟩ := not_or.mp fun found => outside (List.mem_cons.mpr found)
    rw [List.cons_append, cutAfter, if_neg (Ne.symm ne), ih outside]
    rfl

theorem cutAfter_isCut (separator : α) (t : List α) :
    IsCut separator t (cutAfter separator t) := by
  by_cases found : separator ∈ t
  · obtain ⟨u, rest, whole, outside⟩ := List.eq_append_cons_of_mem found
    have shorter : rest.length < t.length := by
      rw [whole, List.length_append, List.length_cons]
      omega
    rw [whole, cutAfter_append_cons outside]
    exact .cons outside (cutAfter_isCut separator rest)
  · cases t with
    | nil => exact .nil
    | cons a t =>
      have some := List.cons_ne_nil a t
      rw [cutAfter_of_not_mem some found]
      exact .singleton some found
termination_by t.length

theorem isCut_iff : IsCut separator t pieces ↔ pieces = cutAfter separator t := by
  refine ⟨fun h => ?_, fun same => same ▸ cutAfter_isCut separator t⟩
  induction pieces generalizing t with
  | nil => rw [← h.whole]; rfl
  | cons piece pieces ih =>
    obtain ⟨some, inside⟩ := (List.forall_mem_cons.mp h.inside).1
    have split := List.dropLast_concat_getLast some
    have whole := h.whole.symm
    rw [List.flatten_cons] at whole
    by_cases ended : piece.getLast some = separator
    · rw [ended] at split
      rw [← split, List.append_assoc, List.singleton_append] at whole
      rw [whole, cutAfter_append_cons inside, ← ih h.tail, split]
    · have outside : separator ∉ piece := by
        rw [← split]
        simpa [Ne.symm ended] using inside
      cases pieces with
      | nil =>
        rw [whole, List.flatten_nil, List.append_nil, cutAfter_of_not_mem some outside]
      | cons next pieces =>
        have last := (List.forall_mem_cons.mp h.ended).1
        rw [List.getLast?_eq_some_getLast some] at last
        exact absurd (Option.some.inj last) ended

end Calculator
