import Calculator.Token.Cursor

/-!
# Operators at a cursor

Which operator the rules find depends on the symbol that begins at the cursor and on the kind of
place: in each kind of place two operators have different symbols.
-/

namespace Calculator

namespace Operator

/-- With different symbols, each operator is found by its own. -/
theorem find?_symbol {ops : List Operator} (apart : (ops.map symbol).Nodup) {op : Operator}
    (h : op ∈ ops) : find? ops op.symbol = some op := by
  induction ops with
  | nil => cases h
  | cons first ops ih =>
    obtain ⟨other, apart⟩ := List.nodup_cons.mp apart
    rcases List.mem_cons.mp h with rfl | later
    · simp [find?]
    · have ne : first.symbol ≠ op.symbol := fun same => other (same ▸ List.mem_map_of_mem later)
      rw [find?, List.find?_cons_of_neg (by simpa using ne)]
      exact ih apart later

theorem find?_beforeOperand {op : Operator} (h : op.placement = .beforeOperand) :
    find? beforeOperand op.symbol = some op :=
  find?_symbol nodup_symbols.2.1 (List.mem_filter.mpr ⟨mem_all op, decide_eq_true h⟩)

theorem find?_afterVariable {op : Operator} (h : op.placement = .afterVariable) :
    find? afterVariable op.symbol = some op :=
  find?_symbol nodup_symbols.2.2 (List.mem_filter.mpr ⟨mem_all op, decide_eq_true h⟩)

theorem find?_leveled {op : Operator} {l : Level} (h : op.level? = some l) :
    find? leveled op.symbol = some op :=
  find?_symbol nodup_symbols.1 (List.mem_filter.mpr ⟨mem_all op, by rw [h]; rfl⟩)

theorem symbol_of_find? {ops : List Operator} {op : Operator} {m : Text}
    (h : find? ops m = some op) : op ∈ ops ∧ op.symbol = m :=
  ⟨List.mem_of_find?_eq_some h, by simpa using List.find?_some h⟩

theorem atLevel?_symbol {op : Operator} {l : Level} (h : op.level? = some l) :
    atLevel? l op.symbol = some op := by
  simp [atLevel?, find?_leveled h, h]

theorem of_atLevel? {op : Operator} {l : Level} {m : Text} (h : atLevel? l m = some op) :
    op.level? = some l ∧ op.symbol = m := by
  obtain ⟨hf, hl⟩ := Option.filter_eq_some_iff.mp h
  exact ⟨of_decide_eq_true hl, (symbol_of_find? hf).2⟩

theorem level?_eq_some_iff {op : Operator} {l : Level} :
    op.level? = some l ↔ op.placement = .atLevel l := by
  unfold level?
  cases op.placement <;> simp

theorem placement_of_binary (op : Operator) (h : op.arity = 2) : ∃ l, op.placement = .atLevel l := by
  cases op <;> first | exact ⟨_, rfl⟩ | exact absurd h (by decide)

theorem associativity_eq {op op' : Operator} {l : Level} (h : op.level? = some l)
    (h' : op'.level? = some l) : op.associativity = op'.associativity := by
  revert op op' l
  have all : ∀ op ∈ Operator.all, ∀ op' ∈ Operator.all, op.level? = op'.level? → op.level?.isSome →
      op.associativity = op'.associativity := by decide +kernel
  intro op op' l h h'
  exact all op (mem_all op) op' (mem_all op') (h.trans h'.symm) (by simp [h])

/-- Operators of one operand that stand behind it group to the left. -/
theorem associativity_of_arity {op : Operator} {l : Level} (hl : op.level? = some l)
    (h : op.arity = 1) : op.associativity = .left := by
  cases op <;> first | rfl | exact absurd h (by decide) | exact nomatch hl

theorem next?_of_arity {op : Operator} {l : Level} (hl : op.level? = some l) (h : op.arity = 1) :
    l.next? = none := by
  cases op <;> first | exact absurd h (by decide) | cases hl <;> rfl

theorem arity_of_beforeOperand {op : Operator} (h : op.placement = .beforeOperand) :
    op.arity = 1 := by
  cases op <;> first | rfl | cases h

theorem arity_of_afterVariable {op : Operator} (h : op.placement = .afterVariable) :
    op.arity = 1 := by
  cases op <;> first | rfl | cases h

end Operator

namespace Cursor

variable {c d : Cursor} {op : Operator}

theorem take?_eq_some_iff {k : TokenKind} {m : Text} :
    c.take? k = some (m, d) ↔ k.longest? c.rest = some m ∧ d = c.pass k m := by
  simp only [take?, takeIf?, Option.map_eq_some_iff, Option.filter_eq_some_iff, Prod.mk.injEq]
  constructor
  · rintro ⟨m', ⟨hm, -⟩, rfl, rfl⟩
    exact ⟨hm, rfl⟩
  · rintro ⟨hm, rfl⟩
    exact ⟨m, ⟨hm, trivial⟩, rfl, rfl⟩

theorem take?_eq_none_iff {k : TokenKind} : c.take? k = none ↔ k.longest? c.rest = none := by
  unfold take? takeIf?
  cases k.longest? c.rest with
  | none => exact iff_of_true rfl rfl
  | some m => simp

theorem beforeOperand?_eq_some_iff : c.beforeOperand? = some (op, d) ↔
    op.placement = .beforeOperand ∧ c.take? .beforeOperand = some (op.symbol, d) := by
  unfold beforeOperand?
  constructor
  · intro h
    obtain ⟨⟨m, e⟩, ht, he⟩ := Option.bind_eq_some_iff.mp h
    obtain ⟨op', hf, he⟩ := Option.map_eq_some_iff.mp he
    obtain ⟨rfl, rfl⟩ := Prod.mk.inj he
    obtain ⟨hop, rfl⟩ := Operator.symbol_of_find? hf
    exact ⟨of_decide_eq_true (List.mem_filter.mp hop).2, ht⟩
  · rintro ⟨hop, ht⟩
    simp [ht, Operator.find?_beforeOperand hop]

theorem afterVariable?_eq_some_iff : c.afterVariable? = some (op, d) ↔
    op.placement = .afterVariable ∧ c.take? .afterVariable = some (op.symbol, d) := by
  unfold afterVariable?
  constructor
  · intro h
    obtain ⟨⟨m, e⟩, ht, he⟩ := Option.bind_eq_some_iff.mp h
    obtain ⟨op', hf, he⟩ := Option.map_eq_some_iff.mp he
    obtain ⟨rfl, rfl⟩ := Prod.mk.inj he
    obtain ⟨hop, rfl⟩ := Operator.symbol_of_find? hf
    exact ⟨of_decide_eq_true (List.mem_filter.mp hop).2, ht⟩
  · rintro ⟨hop, ht⟩
    simp [ht, Operator.find?_afterVariable hop]

theorem atLevel?_eq_some_iff {l : Level} : c.atLevel? l = some (op, d) ↔
    op.level? = some l ∧ c.take? .operator = some (op.symbol, d) := by
  unfold atLevel?
  constructor
  · intro h
    obtain ⟨⟨m, e⟩, ht, he⟩ := Option.bind_eq_some_iff.mp h
    obtain ⟨op', hf, he⟩ := Option.map_eq_some_iff.mp he
    obtain ⟨rfl, rfl⟩ := Prod.mk.inj he
    obtain ⟨hop, rfl⟩ := Operator.of_atLevel? hf
    refine ⟨hop, take?_eq_some_iff.mpr ?_⟩
    obtain ⟨m', hm, he⟩ := Option.map_eq_some_iff.mp ht
    obtain ⟨rfl, rfl⟩ := Prod.mk.inj he
    exact ⟨(Option.filter_eq_some_iff.mp hm).1, rfl⟩
  · rintro ⟨hop, ht⟩
    obtain ⟨hm, rfl⟩ := take?_eq_some_iff.mp ht
    have hl := Operator.atLevel?_symbol hop
    simp [takeIf?, hm, hl, Option.filter]

theorem beforeOperand?_eq_none (h : TokenKind.beforeOperand.longest? c.rest = none) :
    c.beforeOperand? = none := by
  simp [beforeOperand?, take?_eq_none_iff.mpr h]

theorem atLevel?_eq_none {l : Level}
    (h : ∀ op : Operator, op.level? = some l → TokenKind.operator.longest? c.rest ≠ some op.symbol) :
    c.atLevel? l = none := by
  cases hf : c.atLevel? l with
  | none => rfl
  | some p =>
    obtain ⟨hl, ht⟩ := atLevel?_eq_some_iff.mp hf
    exact absurd (take?_eq_some_iff.mp ht).1 (h p.1 hl)

end Cursor

end Calculator
