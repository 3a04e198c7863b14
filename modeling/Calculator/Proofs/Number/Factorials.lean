import Calculator.Number.Factorial

/-!
# Remembered factorials are the factorials

The factorials that a session has computed so far are the first ones of the recurrence `product`, so
that what is handed out does not depend on how many they are (`Factorials.Canonical.factorial`).
After any requests they reach to the greatest number asked for, and every entry that is read is
there (`Factorials.factorial_after_requests`).
-/

namespace Calculator.Factorials

/-- The factorial by its recurrence, rounded after each product. -/
def product : Nat → Float
  | 0 => 1.0
  | n + 1 => Binary64.ofInt (n + 1 : Nat) * product n

/-- The factorial of a double, without anything remembered. -/
def valueOf (v : Float) : Float :=
  let n := toInt32 v
  if n < 1 then 1.0
  else if maxFinite < n then Binary64.infinity
  else product n.toNat

/-- The first factorials in their order, at least one. -/
structure Canonical (f : Factorials) : Prop where
  nonempty : 0 < f.size
  value : ∀ n, n < f.size → f.values[n]? = some (product n)

theorem canonical_initial : initial.Canonical where
  nonempty := by decide
  value n h := by
    obtain rfl : n = 0 := Nat.lt_one_iff.mp h
    rfl

variable {f : Factorials}

theorem Canonical.last (h : f.Canonical) : f.values.back? = some (product (f.size - 1)) := by
  have nonempty := h.nonempty
  rw [Array.back?_eq_getElem?]
  exact h.value (f.size - 1) (by omega)

theorem Canonical.push (h : f.Canonical) : Canonical
    ⟨f.values.push (Binary64.ofInt f.values.size * f.values.back?.getD 1.0)⟩ where
  nonempty := by simp [size]
  value n hn := by
    have nonempty := h.nonempty
    simp only [size, Array.size_push] at hn nonempty
    rw [Array.getElem?_push]
    by_cases last : n = f.values.size
    · obtain ⟨k, hk⟩ : ∃ k, f.values.size = k + 1 := ⟨f.values.size - 1, by omega⟩
      rw [if_pos last, h.last, last, hk, size, hk]
      rfl
    · rw [if_neg last]
      exact h.value n (by simp only [size]; omega)

theorem Canonical.extend (h : f.Canonical) (n : Nat) :
    (f.extend n).Canonical ∧ (f.extend n).size = f.size + n := by
  induction n generalizing f with
  | zero => exact ⟨h, rfl⟩
  | succ n ih =>
    obtain ⟨canonical, size⟩ := ih h.push
    refine ⟨canonical, size.trans ?_⟩
    simp only [Factorials.size, Array.size_push]
    omega

theorem Canonical.factorial (h : f.Canonical) (v : Float) :
    (f.factorial v).1 = valueOf v ∧ (f.factorial v).2.Canonical := by
  unfold Factorials.factorial valueOf
  dsimp only
  split
  · exact ⟨rfl, h⟩
  split
  · exact ⟨rfl, h⟩
  obtain ⟨canonical, size⟩ := h.extend ((toInt32 v).toNat + 1 - f.size)
  refine ⟨?_, canonical⟩
  rw [canonical.value (toInt32 v).toNat (by omega)]
  rfl

/-- The number whose factorial has to be computed for `v`, at most `maxFinite`; `0` if none has. -/
def request (v : Float) : Nat :=
  if 1 ≤ toInt32 v ∧ toInt32 v ≤ maxFinite then (toInt32 v).toNat else 0

theorem Canonical.size_factorial (h : f.Canonical) (v : Float) :
    (f.factorial v).2.size = max f.size (1 + request v) := by
  have nonempty := h.nonempty
  unfold Factorials.factorial request
  dsimp only
  split
  · rw [if_neg (by omega)]
    dsimp only
    omega
  split
  · rw [if_neg (by omega)]
    dsimp only
    omega
  · rw [(h.extend _).2, if_pos (by omega)]
    omega

/-- What is remembered only grows. -/
theorem Canonical.size_le (h : f.Canonical) (v : Float) : f.size ≤ (f.factorial v).2.size := by
  rw [h.size_factorial]
  exact Nat.le_max_left _ _

/-- Nothing is added to factorials that are as many as others become by the same request. -/
theorem Canonical.factorial_of_size (h : f.Canonical) {g : Factorials} {v : Float}
    (enough : (f.factorial v).2.size ≤ g.size) : (g.factorial v).2 = g := by
  unfold Factorials.factorial at enough ⊢
  dsimp only at enough ⊢
  split
  · rfl
  split
  · rfl
  · rw [if_neg ‹_›, if_neg ‹_›, (h.extend _).2] at enough
    have none : (toInt32 v).toNat + 1 - g.size = 0 := by omega
    rw [none]
    rfl

/-- As `extend`, without a result where the entry that the next one is computed from is missing. -/
def extend? (f : Factorials) : Nat → Option Factorials
  | 0 => some f
  | n + 1 => do
    let last ← f.values[f.size - 1]?
    extend? ⟨f.values.push (Binary64.ofInt f.size * last)⟩ n

/-- As `factorial`, without a result where an entry that it reads is missing. -/
def factorial? (f : Factorials) (v : Float) : Option (Float × Factorials) :=
  let n := toInt32 v
  if n < 1 then some (1.0, f)
  else if maxFinite < n then some (Binary64.infinity, f)
  else do
    let f ← f.extend? (n.toNat + 1 - f.size)
    let result ← f.values[n.toNat]?
    return (result, f)

def greatest (requests : List Float) : Nat :=
  (requests.map request).foldr max 0

/-- What is remembered after the factorials of `requests` have been asked for in turn. -/
def after (f : Factorials) (requests : List Float) : Factorials :=
  requests.foldl (fun f v => (f.factorial v).2) f

theorem request_le (v : Float) : request v ≤ 170 := by
  unfold request maxFinite
  split <;> omega

theorem greatest_le (requests : List Float) : greatest requests ≤ 170 := by
  induction requests with
  | nil => exact Nat.zero_le _
  | cons v requests ih => exact Nat.max_le.mpr ⟨request_le v, ih⟩

theorem Canonical.extend?_eq (h : f.Canonical) (n : Nat) : f.extend? n = some (f.extend n) := by
  induction n generalizing f with
  | zero => rfl
  | succ n ih =>
    have nonempty := h.nonempty
    have last := h.last
    rw [Factorials.extend, ← ih h.push, Factorials.extend?, h.value (f.size - 1) (by omega), last]
    rfl

theorem Canonical.factorial?_eq (h : f.Canonical) (v : Float) :
    f.factorial? v = some (f.factorial v) := by
  unfold Factorials.factorial? Factorials.factorial
  dsimp only
  split
  · rfl
  split
  · rfl
  obtain ⟨canonical, size⟩ := h.extend ((toInt32 v).toNat + 1 - f.size)
  rw [h.extend?_eq, Option.bind_eq_bind, Option.bind_some,
    canonical.value (toInt32 v).toNat (by omega)]
  rfl

theorem Canonical.after (h : f.Canonical) (requests : List Float) :
    (f.after requests).Canonical ∧ (f.after requests).size = max f.size (1 + greatest requests) := by
  induction requests generalizing f with
  | nil =>
    have nonempty := h.nonempty
    exact ⟨h, (Nat.max_eq_left nonempty).symm⟩
  | cons v requests ih =>
    obtain ⟨canonical, size⟩ := ih (h.factorial v).2
    refine ⟨canonical, size.trans ?_⟩
    have step : greatest (v :: requests) = max (request v) (greatest requests) := rfl
    rw [h.size_factorial, step]
    omega

theorem Canonical.toList (h : f.Canonical) : f.values.toList = (List.range f.size).map product := by
  refine List.ext_getElem? fun n => ?_
  rw [Array.getElem?_toList, List.getElem?_map]
  by_cases inside : n < f.size
  · rw [h.value n inside, List.getElem?_range inside]
    rfl
  · rw [Array.getElem?_eq_none (Nat.le_of_not_lt inside),
      List.getElem?_eq_none (by rw [List.length_range]; exact Nat.le_of_not_lt inside)]
    rfl

/-- Whatever has been asked for before, a factorial is the one that nothing remembered gives, no
entry is read that is missing, and what is remembered are the factorials up to the greatest number
asked for. -/
theorem factorial_after_requests (requests : List Float) (v : Float) :
    ((initial.after requests).factorial v).1 = (initial.factorial v).1 ∧
    (initial.factorial v).1 = valueOf v ∧
    (initial.after requests).factorial? v = some ((initial.after requests).factorial v) ∧
    (initial.after requests).values.toList = (List.range (1 + greatest requests)).map product ∧
    (initial.after requests).size ≤ 171 ∧
    (initial.after requests).size ≤ ((initial.after requests).factorial v).2.size := by
  obtain ⟨canonical, size⟩ := canonical_initial.after requests
  have fresh := (canonical_initial.factorial v).1
  rw [show initial.size = 1 from rfl, Nat.max_eq_right (Nat.le_add_right 1 _)] at size
  refine ⟨(canonical.factorial v).1.trans fresh.symm, fresh, canonical.factorial?_eq v, ?_, ?_,
    canonical.size_le v⟩
  · rw [canonical.toList, size]
  · have bound := greatest_le requests
    omega

end Calculator.Factorials
