import Calculator.Proofs.Token.Boundary
import Calculator.Proofs.Token.Operators

/-!
# Places between tokens

The rules look for some kinds of tokens before an operand and for others behind one, and the token
they pass tells which of the two places follows. At each place at most one token can be passed
(`Place.Leads.unique`), although several kinds of symbols are looked for behind an operand.
-/

namespace Calculator.Grammar

inductive Place where
  | beforeOperand
  | behindOperand
deriving DecidableEq, Repr

end Grammar

/-- An operator of one operand that stands behind it leaves the place as it is. -/
def Operator.follow (op : Operator) : Grammar.Place :=
  if op.arity = 1 then .behindOperand else .beforeOperand

namespace Grammar.Place

/-- The kinds that are looked for. -/
def admits : Place → TokenKind → Bool
  | beforeOperand, .beforeOperand | beforeOperand, .openParen => true
  | beforeOperand, .number | beforeOperand, .name => true
  | behindOperand, .afterVariable | behindOperand, .operator => true
  | behindOperand, .closeParen | behindOperand, .separator => true
  | _, _ => false

/-- The place behind a token; a symbol behind an operand is passed only if it is of some level. -/
def after? : TokenKind → Text → Option Place
  | .beforeOperand, _ | .openParen, _ | .separator, _ => some beforeOperand
  | .number, _ | .name, _ | .afterVariable, _ | .closeParen, _ => some behindOperand
  | .operator, m => (Operator.find? Operator.leveled m).map Operator.follow
  | .blank, _ => none

structure Leads (p : Place) (k : TokenKind) (m : Text) (q : Place) : Prop where
  admits : p.admits k
  after : after? k m = some q

theorem after?_symbol {op : Operator} {l : Level} (h : op.level? = some l) :
    after? .operator op.symbol = some op.follow := by
  simp [after?, Operator.find?_leveled h]

/-! ### One token at a place -/

theorem symbol_of_update {m n : Text} (hm : TokenKind.afterVariable.Language m)
    (hn : TokenKind.operator.Language n) (h : m <+: n) : n = m := by
  have all : ∀ m ∈ Operator.afterVariable.map Operator.symbol, ∀ n ∈ Operator.all.map Operator.symbol,
      m <+: n → n = m := by decide +kernel
  exact all m hm n hn h

/-- Behind an operand an update and any other symbol are found together only if they are the same. -/
theorem update_eq_symbol {t m n : Text} (hm : TokenKind.afterVariable.longest? t = some m)
    (hn : TokenKind.operator.longest? t = some n) : n = m := by
  obtain ⟨front, language, -⟩ := TokenKind.isLongest_of_longest? hm
  obtain ⟨front', language', longest⟩ := TokenKind.isLongest_of_longest? hn
  have symbol : TokenKind.operator.Language m := by
    obtain ⟨op, -, rfl⟩ := List.mem_map.mp language
    exact TokenKind.language_symbol op
  exact symbol_of_update language language'
    (List.prefix_of_prefix_length_le front front' (longest m front symbol))

theorem after?_update {m : Text} (hm : TokenKind.afterVariable.Language m) :
    after? .operator m = none := by
  have all : ∀ m ∈ Operator.afterVariable.map Operator.symbol,
      Operator.find? Operator.leveled m = none := by decide +kernel
  simp [after?, all m hm]

/-- Of two kinds with the same first characters only updates and symbols are looked for together. -/
theorem kinds_of_family {p : Place} {k l : TokenKind} (hk : p.admits k) (hl : p.admits l)
    (family : k.family = l.family) :
    k = l ∨ (k = .afterVariable ∧ l = .operator) ∨ (k = .operator ∧ l = .afterVariable) := by
  revert hk hl family
  cases p <;> cases k <;> cases l <;> decide

/-- Whatever is found at a place is the same text. -/
theorem text_unique {p : Place} {k l : TokenKind} {t m n : Text} (hk : p.admits k) (hl : p.admits l)
    (hm : k.longest? t = some m) (hn : l.longest? t = some n) : m = n := by
  rcases kinds_of_family hk hl (TokenKind.family_eq hm hn) with rfl | ⟨rfl, rfl⟩ | ⟨rfl, rfl⟩
  · exact Option.some.inj (hm.symm.trans hn)
  · exact (update_eq_symbol hm hn).symm
  · exact update_eq_symbol hn hm

theorem Leads.unique {p q q' : Place} {k l : TokenKind} {t m n : Text} (h : p.Leads k m q)
    (h' : p.Leads l n q') (hm : k.longest? t = some m) (hn : l.longest? t = some n) :
    k = l ∧ m = n ∧ q = q' := by
  obtain rfl := text_unique h.admits h'.admits hm hn
  rcases kinds_of_family h.admits h'.admits (TokenKind.family_eq hm hn)
    with rfl | ⟨rfl, rfl⟩ | ⟨rfl, rfl⟩
  · exact ⟨rfl, rfl, Option.some.inj (h.after.symm.trans h'.after)⟩
  · cases h'.after.symm.trans (after?_update (TokenKind.longest?_language hm))
  · cases h.after.symm.trans (after?_update (TokenKind.longest?_language hn))

end Grammar.Place

end Calculator
