import Calculator.Token.Kind

/-!
# Cursor

A `Cursor` stands in a text behind the tokens it has passed and the blanks after each of them.
`Cursor.take?` passes the longest token of a kind and always moves (`remaining_take?`).
-/

namespace Calculator

structure Lexeme where
  kind : TokenKind
  text : Text
  blank : Text
deriving DecidableEq, Repr

structure Cursor where
  /-- Bytes of the text up to here. -/
  offset : Nat
  rest : Text
  /-- Latest first. -/
  passed : List Lexeme
deriving DecidableEq, Repr

namespace Cursor

def start (t : Text) : Cursor :=
  ⟨Text.extent (Text.leadingBlank t), Text.dropBlank t, []⟩

/-- Characters still ahead; the measure of every loop over a text. -/
def remaining (c : Cursor) : Nat :=
  c.rest.length

def atEnd (c : Cursor) : Bool :=
  c.rest.isEmpty

/-- The next character, as error messages show it. -/
def describeNext (c : Cursor) : Text :=
  match c.rest with
  | d :: _ => ['`', d, '`']
  | [] => "end of input".toList

/-- Behind `token` and the blanks after it. -/
def pass (c : Cursor) (kind : TokenKind) (token : Text) : Cursor :=
  let behind := c.rest.drop token.length
  let blank := Text.leadingBlank behind
  ⟨c.offset + Text.extent token + Text.extent blank, Text.dropBlank behind,
    ⟨kind, token, blank⟩ :: c.passed⟩

/-- Passes the longest token of a kind, if there is one and `accept` agrees to it. -/
def takeIf? (c : Cursor) (kind : TokenKind) (accept : Text → Bool) : Option (Text × Cursor) :=
  ((kind.longest? c.rest).filter accept).map fun token => (token, c.pass kind token)

def take? (c : Cursor) (kind : TokenKind) : Option (Text × Cursor) :=
  c.takeIf? kind fun _ => true

theorem remaining_takeIf? {c d : Cursor} {kind : TokenKind} {accept : Text → Bool} {m : Text}
    (h : c.takeIf? kind accept = some (m, d)) : d.remaining < c.remaining := by
  obtain ⟨token, ht, he⟩ := Option.map_eq_some_iff.mp h
  obtain ⟨ht, -⟩ := Option.filter_eq_some_iff.mp ht
  obtain ⟨rfl, rfl⟩ := Prod.mk.inj he
  have hlen : 0 < token.length := List.length_pos_iff.mpr (TokenKind.longest?_ne_nil ht)
  have hle : token.length ≤ c.rest.length := (TokenKind.longest?_isPrefix ht).length_le
  have hdrop := Text.length_dropBlank_le (c.rest.drop token.length)
  simp only [List.length_drop] at hdrop
  simp only [remaining, pass]
  omega

theorem remaining_take? {c d : Cursor} {kind : TokenKind} {m : Text}
    (h : c.take? kind = some (m, d)) : d.remaining < c.remaining :=
  remaining_takeIf? h

/-! ### Operators at the cursor -/

def beforeOperand? (c : Cursor) : Option (Operator × Cursor) :=
  (c.take? .beforeOperand).bind fun (symbol, d) =>
    (Operator.find? Operator.beforeOperand symbol).map (·, d)

def afterVariable? (c : Cursor) : Option (Operator × Cursor) :=
  (c.take? .afterVariable).bind fun (symbol, d) =>
    (Operator.find? Operator.afterVariable symbol).map (·, d)

/-- The longest symbol at the cursor, if it belongs to an operator of this level. -/
def atLevel? (c : Cursor) (level : Level) : Option (Operator × Cursor) :=
  (c.takeIf? .operator fun symbol => (Operator.atLevel? level symbol).isSome).bind
    fun (symbol, d) => (Operator.atLevel? level symbol).map (·, d)

theorem remaining_beforeOperand? {c d : Cursor} {op : Operator}
    (h : c.beforeOperand? = some (op, d)) : d.remaining < c.remaining := by
  obtain ⟨⟨symbol, e⟩, ht, he⟩ := Option.bind_eq_some_iff.mp h
  obtain ⟨_, -, hd⟩ := Option.map_eq_some_iff.mp he
  exact (Prod.mk.inj hd).2 ▸ remaining_take? ht

theorem remaining_afterVariable? {c d : Cursor} {op : Operator}
    (h : c.afterVariable? = some (op, d)) : d.remaining < c.remaining := by
  obtain ⟨⟨symbol, e⟩, ht, he⟩ := Option.bind_eq_some_iff.mp h
  obtain ⟨_, -, hd⟩ := Option.map_eq_some_iff.mp he
  exact (Prod.mk.inj hd).2 ▸ remaining_take? ht

theorem remaining_atLevel? {c d : Cursor} {level : Level} {op : Operator}
    (h : c.atLevel? level = some (op, d)) : d.remaining < c.remaining := by
  obtain ⟨⟨symbol, e⟩, ht, he⟩ := Option.bind_eq_some_iff.mp h
  obtain ⟨_, -, hd⟩ := Option.map_eq_some_iff.mp he
  exact (Prod.mk.inj hd).2 ▸ remaining_takeIf? ht

end Cursor

end Calculator
