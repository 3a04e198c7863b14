import Calculator.Proofs.Tree.Interpretation
import Calculator.Proofs.Tree.Reading
import Calculator.Tree.Printer
import Mathlib.Data.List.Basic

/-!
# Printed trees are read back

The text of a tree, printed with as few parentheses as its levels ask for or with parentheses
everywhere, is read as that tree up to the offsets of its operators, and an evaluation of the text
does what the tree means (`Session.evaluate_printed`). `Prints ts p t` is the statement for one
phrase among others: the tokens `ts` are read as a phrase of kind `p` with the tree `t`, whatever
tokens follow.
-/

namespace Calculator

namespace Tree

open Grammar

/-! ### Tokens with a space between any two -/

def IsToken (m : Text) : Prop :=
  ∃ k : TokenKind, k.inExpression ∧ k.longest? m = some m

theorem IsToken.exists_cons {m : Text} (h : IsToken m) :
    ∃ c t, m = c :: t ∧ ¬ Text.isBlank c := by
  obtain ⟨k, hk, hm⟩ := h
  obtain ⟨c, t, rfl⟩ := List.exists_cons_of_ne_nil (TokenKind.longest?_ne_nil hm)
  have outside := (TokenKind.longest?_language hm).not_inSeparator hk c List.mem_cons_self
  exact ⟨c, t, rfl, fun hc => outside (by simp [Token.inSeparator, hc])⟩

theorem IsToken.symbol (op : Operator) : IsToken op.symbol :=
  ⟨.operator, rfl, TokenKind.longest?_self (TokenKind.language_symbol op)⟩

theorem join_cons (m : Text) {more : List Text} (h : more ≠ []) :
    join (m :: more) = m ++ ' ' :: join more := by
  simp [join, List.intercalate_cons_of_ne_nil h]

theorem dropBlank_join {ts : List Text} (h : ∀ m ∈ ts, IsToken m) :
    Text.dropBlank (join ts) = join ts := by
  cases ts with
  | nil => rfl
  | cons m more =>
    obtain ⟨c, t, rfl, hc⟩ := (h m List.mem_cons_self).exists_cons
    cases more with
    | nil => simp [join, Text.dropBlank, hc]
    | cons m' more =>
      rw [join_cons _ (List.cons_ne_nil _ _)]
      simp [Text.dropBlank, hc]

theorem take?_join {k : TokenKind} {m : Text} {more : List Text} {c : Cursor} (hk : k.inExpression)
    (hm : k.longest? m = some m) (tokens : ∀ x ∈ more, IsToken x) (hc : c.rest = join (m :: more)) :
    ∃ d, c.take? k = some (m, d) ∧ d.rest = join more := by
  refine ⟨c.pass k m, Cursor.take?_eq_some_iff.mpr ⟨?_, rfl⟩, ?_⟩
  · rw [hc]
    by_cases h : more = []
    · rw [h, join, List.intercalate_singleton, hm]
    · rw [join_cons m h, TokenKind.longest?_append_cons hk (by decide), hm]
  · show Text.dropBlank (c.rest.drop m.length) = join more
    rw [hc]
    by_cases h : more = []
    · rw [h, join, List.intercalate_singleton, List.drop_length]
      rfl
    · rw [join_cons m h, List.drop_left]
      exact dropBlank_join tokens

end Tree

/-! ### Phrases by how tightly they bind -/

namespace Grammar

open Calculator.Tree (termTightness atomTightness leftTightness rightTightness)

def Phrase.tightness : Phrase → Nat
  | .expression l => l.rank
  | .term => termTightness
  | .atom => atomTightness

theorem Phrase.tightness_le (p : Phrase) : p.tightness ≤ Phrase.atom.tightness := by
  cases p with
  | expression l =>
    have := l.rank_le
    show l.rank ≤ 15
    omega
  | term | atom => decide

theorem Phrase.tightness_inj {p q : Phrase} (h : p.tightness = q.tightness) : p = q := by
  have ranked (p : Phrase) :
      (Level.all.map Phrase.expression ++ [.term, .atom])[p.tightness]? = some p := by
    cases p with
    | expression l => cases l <;> rfl
    | term | atom => rfl
  exact Option.some.inj ((ranked p).symm.trans (h ▸ ranked q))

theorem Phrase.tightness_operand (l : Level) : (Phrase.operand l).tightness = l.rank + 1 := by
  unfold Phrase.operand
  cases hl : l.next? with
  | some m => exact Level.rank_next? hl
  | none =>
    cases l <;> first | rfl | cases hl

/-- What is read as a phrase is read as any looser one. -/
theorem Reads.loosen {q : Phrase} {t : Tree} {c d : Cursor} (h : Reads q t c d) {p : Phrase}
    (hle : p.tightness ≤ q.tightness) : Reads p t c d := by
  induction hn : q.tightness - p.tightness generalizing p with
  | zero => exact Phrase.tightness_inj (Nat.le_antisymm hle (Nat.le_of_sub_eq_zero hn)) ▸ h
  | succ n ih =>
    cases p with
    | expression l =>
      have own : (Phrase.expression l).tightness = l.rank := rfl
      have step := Phrase.tightness_operand l
      exact .operand (ih (by omega) (by omega))
    | term =>
      have step : Phrase.atom.tightness = Phrase.term.tightness + 1 := rfl
      exact .atom (ih (by omega) (by omega))
    | atom =>
      have tightest := q.tightness_le
      omega

def leftPhrase (op : Operator) (l : Level) : Phrase :=
  match op.associativity with
  | .left => .expression l
  | .right => .operand l

def rightPhrase (op : Operator) (l : Level) : Phrase :=
  match op.associativity with
  | .left => .operand l
  | .right => .expression l

theorem tightness_leftPhrase (op : Operator) (l : Level) :
    (leftPhrase op l).tightness = leftTightness op l.rank := by
  unfold leftPhrase leftTightness
  cases op.associativity with
  | left => rfl
  | right => exact Phrase.tightness_operand l

theorem tightness_rightPhrase (op : Operator) (l : Level) :
    (rightPhrase op l).tightness = rightTightness op l.rank := by
  unfold rightPhrase rightTightness
  cases op.associativity with
  | left => exact Phrase.tightness_operand l
  | right => rfl

theorem Reads.binary {op : Operator} {l : Level} {t u : Tree} {c d e f : Cursor}
    (hl : op.level? = some l) (arity : op.arity = 2) (left : Reads (leftPhrase op l) t c d)
    (taken : d.take? .operator = some (op.symbol, e)) (right : Reads (rightPhrase op l) u e f) :
    Reads (.expression l) (.binary op d.offset t u) c f := by
  unfold leftPhrase at left
  unfold rightPhrase at right
  cases other : op.associativity with
  | left =>
    rw [other] at left right
    exact .leftGrouping hl arity other left taken right
  | right =>
    rw [other] at left right
    exact .rightGrouping hl arity other left taken right

end Grammar

namespace Tree

open Grammar

/-- The kind of phrase that a tree is without parentheses. -/
def phrase : Tree → Phrase
  | number _ | name _ => .atom
  | unary op .. | binary op .. =>
    match op.placement with
    | .beforeOperand => .term
    | .afterVariable => .atom
    | .atLevel l => .expression l

theorem tightness_phrase (t : Tree) : t.phrase.tightness = t.tightness := by
  cases t with
  | number | name => rfl
  | unary op | binary op =>
    cases hp : op.placement <;> simp only [phrase, tightness, hp] <;> rfl

def withoutOffsets : Tree → Tree
  | number t => number t
  | name t => name t
  | unary op _ t => unary op 0 t.withoutOffsets
  | binary op _ t u => binary op 0 t.withoutOffsets u.withoutOffsets

/-- The tokens are read as the tree, up to its offsets, whatever tokens follow. -/
structure Prints (ts : List Text) (p : Phrase) (t : Tree) : Prop where
  tokens : ∀ m ∈ ts, IsToken m
  reads : ∀ {more : List Text} {c : Cursor}, (∀ m ∈ more, IsToken m) → c.rest = join (ts ++ more) →
    ∃ u d, Reads p u c d ∧ d.rest = join more ∧ u.withoutOffsets = t.withoutOffsets

namespace Prints

variable {ts us : List Text} {p q : Phrase} {t u : Tree} {op : Operator} {l : Level} {m : Text}

theorem loosen (h : Prints ts q t) (hle : p.tightness ≤ q.tightness) : Prints ts p t where
  tokens := h.tokens
  reads more hc := by
    obtain ⟨u, d, read, rest⟩ := h.reads more hc
    exact ⟨u, d, read.loosen hle, rest⟩

theorem parenthesize (h : Prints ts p t) : Prints (parenthesize ts) .atom t where
  tokens := by
    have opened : IsToken ['('] := ⟨.openParen, rfl, TokenKind.longest?_self rfl⟩
    have closed : IsToken [')'] := ⟨.closeParen, rfl, TokenKind.longest?_self rfl⟩
    simpa [Tree.parenthesize, or_imp, forall_and, opened, closed] using h.tokens
  reads {more c} tokens hc := by
    have closed : IsToken [')'] := ⟨.closeParen, rfl, TokenKind.longest?_self rfl⟩
    have after : ∀ m ∈ [')'] :: more, IsToken m := List.forall_mem_cons.mpr ⟨closed, tokens⟩
    have inside : ∀ m ∈ ts ++ [')'] :: more, IsToken m :=
      List.forall_mem_append.mpr ⟨h.tokens, after⟩
    have whole : c.rest = join (['('] :: (ts ++ [')'] :: more)) := by
      rw [hc, Tree.parenthesize]
      simp
    obtain ⟨d, hd, drest⟩ := take?_join (k := .openParen) rfl (TokenKind.longest?_self rfl) inside whole
    obtain ⟨u, e, read, erest, same⟩ := h.reads after drest
    obtain ⟨f, hf, frest⟩ := take?_join (k := .closeParen) rfl (TokenKind.longest?_self rfl) tokens erest
    exact ⟨u, f, .parentheses hd (read.loosen (Nat.zero_le _)) hf, frest, same⟩

/-- Parentheses stand where the place asks for a tighter phrase. -/
theorem within (h : Prints ts q t) (p : Phrase) :
    Prints (tokens.within p.tightness q.tightness ts) p t := by
  unfold tokens.within
  split
  case isTrue => exact h.parenthesize.loosen p.tightness_le
  case isFalse tight => exact h.loosen (Nat.le_of_not_lt tight)

theorem number (h : TokenKind.number.longest? m = some m) : Prints [m] .atom (.number m) where
  tokens := by simpa using ⟨_, rfl, h⟩
  reads tokens hc := by
    obtain ⟨d, taken, rest⟩ := take?_join rfl h tokens hc
    exact ⟨_, d, .number taken, rest, rfl⟩

theorem name (h : TokenKind.name.longest? m = some m) : Prints [m] .atom (.name m) where
  tokens := by simpa using ⟨_, rfl, h⟩
  reads tokens hc := by
    obtain ⟨d, taken, rest⟩ := take?_join rfl h tokens hc
    exact ⟨_, d, .name taken, rest, rfl⟩

theorem updated (hop : op.placement = .afterVariable) (h : TokenKind.name.longest? m = some m)
    (hc : Environment.isConstant m = false) (n : Nat) :
    Prints [m, op.symbol] .atom (.unary op n (.name m)) where
  tokens := by simpa using ⟨⟨_, rfl, h⟩, IsToken.symbol op⟩
  reads {more c} tokens hr := by
    have after : ∀ x ∈ op.symbol :: more, IsToken x :=
      List.forall_mem_cons.mpr ⟨.symbol op, tokens⟩
    have symbol : TokenKind.afterVariable.Language op.symbol :=
      List.mem_map_of_mem (List.mem_filter.mpr ⟨Operator.mem_all op, by simp [hop]⟩)
    obtain ⟨d, taken, drest⟩ := take?_join rfl h after hr
    obtain ⟨e, next, erest⟩ := take?_join rfl (TokenKind.longest?_self symbol) tokens drest
    exact ⟨_, e, .updated taken hc hop next, erest, rfl⟩

theorem before (hop : op.placement = .beforeOperand) (h : Prints ts .term t) (n : Nat) :
    Prints (op.symbol :: ts) .term (.unary op n t) where
  tokens := List.forall_mem_cons.mpr ⟨.symbol op, h.tokens⟩
  reads {more c} tokens hc := by
    have after : ∀ x ∈ ts ++ more, IsToken x := List.forall_mem_append.mpr ⟨h.tokens, tokens⟩
    have symbol : TokenKind.beforeOperand.Language op.symbol :=
      List.mem_map_of_mem (List.mem_filter.mpr ⟨Operator.mem_all op, by simp [hop]⟩)
    obtain ⟨d, taken, drest⟩ := take?_join rfl (TokenKind.longest?_self symbol) after hc
    obtain ⟨u, e, read, erest, same⟩ := h.reads tokens drest
    exact ⟨_, e, .before hop taken read, erest, by simp [withoutOffsets, same]⟩

theorem operator (h : Prints ts p t) (op : Operator) {more : List Text} {c : Cursor}
    (tokens : ∀ m ∈ more, IsToken m) (hc : c.rest = join (ts ++ op.symbol :: more)) :
    ∃ u d e, Reads p u c d ∧ d.take? .operator = some (op.symbol, e) ∧ e.rest = join more ∧
      u.withoutOffsets = t.withoutOffsets := by
  have after : ∀ x ∈ op.symbol :: more, IsToken x :=
    List.forall_mem_cons.mpr ⟨.symbol op, tokens⟩
  have symbol := TokenKind.longest?_self (TokenKind.language_symbol op)
  obtain ⟨u, d, read, drest, same⟩ := h.reads after hc
  obtain ⟨e, taken, erest⟩ := take?_join rfl symbol tokens drest
  exact ⟨u, d, e, read, taken, erest, same⟩

theorem behind (hl : op.level? = some l) (arity : op.arity = 1) (h : Prints ts (.expression l) t)
    (n : Nat) : Prints (ts ++ [op.symbol]) (.expression l) (.unary op n t) where
  tokens := List.forall_mem_append.mpr ⟨h.tokens, by simpa using IsToken.symbol op⟩
  reads {more c} tokens hc := by
    obtain ⟨u, d, e, read, taken, rest, same⟩ := h.operator op tokens (by simpa using hc)
    exact ⟨_, e, .behind hl arity read taken, rest, by simp [withoutOffsets, same]⟩

theorem binary (hl : op.level? = some l) (arity : op.arity = 2) (left : Prints ts (leftPhrase op l) t)
    (right : Prints us (rightPhrase op l) u) (n : Nat) :
    Prints (ts ++ op.symbol :: us) (.expression l) (.binary op n t u) where
  tokens := List.forall_mem_append.mpr
    ⟨left.tokens, List.forall_mem_cons.mpr ⟨.symbol op, right.tokens⟩⟩
  reads {more c} tokens hc := by
    have after : ∀ x ∈ us ++ more, IsToken x := List.forall_mem_append.mpr ⟨right.tokens, tokens⟩
    obtain ⟨t', d, e, readLeft, taken, erest, sameLeft⟩ := left.operator op after (by simpa using hc)
    obtain ⟨u', f, readRight, frest, sameRight⟩ := right.reads tokens erest
    exact ⟨_, f, readLeft.binary hl arity taken readRight, frest,
      by simp [withoutOffsets, sameLeft, sameRight]⟩

end Prints

/-! ### The two texts of a tree -/

theorem prints_tokens (t : Tree) (h : t.WellFormed) : Prints t.tokens t.phrase t := by
  induction t with
  | number m => exact .number h
  | name m => exact .name h
  | unary op n t ih =>
    obtain ⟨arity, inner, updates⟩ := h
    have operand (p : Phrase) : Prints (tokens.within p.tightness t.tightness t.tokens) p t := by
      rw [← tightness_phrase t]
      exact (ih inner).within p
    cases hop : op.placement <;> simp only [tokens, phrase, hop]
    case beforeOperand => exact (operand .term).before hop n
    case afterVariable =>
      cases t with
      | name m => exact .updated hop inner (by simpa [IsVariable] using updates hop) n
      | number | unary | binary => exact (updates hop).elim
    case atLevel l =>
      exact (operand (.expression l)).behind (Operator.level?_eq_some_iff.mpr hop) arity n
  | binary op n t u left right =>
    obtain ⟨arity, hleft, hright⟩ := h
    obtain ⟨l, hop⟩ : ∃ l, op.placement = .atLevel l := op.placement_of_binary arity
    have own : (Tree.binary op n t u).tightness = l.rank := by simp only [tightness, hop]
    have first := (left hleft).within (leftPhrase op l)
    have second := (right hright).within (rightPhrase op l)
    rw [tightness_leftPhrase, tightness_phrase] at first
    rw [tightness_rightPhrase, tightness_phrase] at second
    simp only [tokens, phrase, own, hop]
    exact first.binary (Operator.level?_eq_some_iff.mpr hop) arity second n

theorem prints_fullTokens (t : Tree) (h : t.WellFormed) : Prints t.fullTokens .atom t := by
  induction t with
  | number m => exact (Prints.number h).parenthesize
  | name m => exact (Prints.name h).parenthesize
  | unary op n t ih =>
    obtain ⟨arity, inner, updates⟩ := h
    cases hop : op.placement <;> simp only [fullTokens, hop]
    case beforeOperand =>
      exact (((ih inner).loosen (Phrase.tightness_le .term)).before hop n).parenthesize
    case afterVariable =>
      cases t with
      | name m =>
        exact (Prints.updated hop inner (by simpa [IsVariable] using updates hop) n).parenthesize
      | number | unary | binary => exact (updates hop).elim
    case atLevel l =>
      have operand := (ih inner).loosen (Phrase.tightness_le (.expression l))
      exact (operand.behind (Operator.level?_eq_some_iff.mpr hop) arity n).parenthesize
  | binary op n t u left right =>
    obtain ⟨arity, hleft, hright⟩ := h
    obtain ⟨l, hop⟩ : ∃ l, op.placement = .atLevel l := op.placement_of_binary arity
    have first := (left hleft).loosen (Phrase.tightness_le (leftPhrase op l))
    have second := (right hright).loosen (Phrase.tightness_le (rightPhrase op l))
    exact (first.binary (Operator.level?_eq_some_iff.mpr hop) arity second n).parenthesize

/-- Both texts are read as the tree, up to its offsets. -/
theorem reads_printed {t : Tree} (h : t.WellFormed) {text : Text} (printed : text ∈ [t.print, t.printFull]) :
    ∃ u d, Reads (.expression .loosest) u (.start text) d ∧ d.rest = [] ∧
      u.withoutOffsets = t.withoutOffsets := by
  have started {ts : List Text} {p : Phrase} (prints : Prints ts p t) :
      ∃ u d, Reads (.expression .loosest) u (.start (join ts)) d ∧ d.rest = [] ∧
        u.withoutOffsets = t.withoutOffsets := by
    have rest : (Cursor.start (join ts)).rest = join (ts ++ []) := by
      rw [List.append_nil]
      exact dropBlank_join prints.tokens
    exact (prints.loosen (Nat.zero_le _)).reads (fun _ h => by cases h) rest
  rcases List.mem_pair.mp printed with rfl | rfl
  · exact started (prints_tokens t h)
  · exact started (prints_fullTokens t h)

/-! ### Offsets do not matter but in errors -/

/-- What a run comes to, without the offset of its error. -/
def outcome {α : Type} (r : Except Error α × Session) : Except Fault α × Session :=
  (r.1.mapError Error.fault, r.2)

/-- Goes on behind a run, unless that stopped at an error. -/
def followedBy {α β : Type} (r : Except Error α × Session)
    (f : α → Session → Except Error β × Session) : Except Error β × Session :=
  match r with
  | (.ok b, s) => f b s
  | (.error e, s) => (.error e, s)

theorem interpret_unary (op : Operator) (n : Nat) (t : Tree) (s : Session) :
    (unary op n t).interpret s = followedBy (t.interpret s) fun b s => s.applyAt op n [b] := by
  rw [interpret]
  obtain ⟨_ | b, s'⟩ := t.interpret s <;> rfl

theorem interpret_binary (op : Operator) (n : Nat) (t u : Tree) (s : Session) :
    (binary op n t u).interpret s = followedBy (t.interpret s) fun a s =>
      followedBy (u.interpret s) fun b s => s.applyAt op n [a, b] := by
  rw [interpret]
  obtain ⟨_ | a, s'⟩ := t.interpret s
  · rfl
  · simp only [followedBy]
    obtain ⟨_ | b, s''⟩ := u.interpret s' <;> rfl

theorem outcome_followedBy {α β : Type} {r q : Except Error α × Session}
    (h : outcome r = outcome q) {f g : α → Session → Except Error β × Session}
    (next : ∀ b s, outcome (f b s) = outcome (g b s)) :
    outcome (followedBy r f) = outcome (followedBy q g) := by
  obtain ⟨x, s⟩ := r
  obtain ⟨y, s'⟩ := q
  obtain ⟨same, rfl⟩ := Prod.mk.inj h
  cases x with
  | ok b =>
    cases y with
    | ok b' =>
      obtain rfl := Except.ok.inj same
      exact next b s
    | error e => cases same
  | error e =>
    cases y with
    | ok b => cases same
    | error e' => exact Prod.ext (congrArg Except.error (Except.error.inj same)) rfl

theorem outcome_interpret (t : Tree) (s : Session) :
    outcome (t.withoutOffsets.interpret s) = outcome (t.interpret s) := by
  have applied (op : Operator) (n : Nat) (vs : List Binding) (s : Session) :
      outcome (s.applyAt op 0 vs) = outcome (s.applyAt op n vs) := by
    unfold Session.applyAt
    generalize s.apply op vs = r
    obtain ⟨_ | b, s'⟩ := r <;> rfl
  induction t generalizing s with
  | number m => rfl
  | name m => rfl
  | unary op n t ih =>
    rw [withoutOffsets, interpret_unary, interpret_unary]
    exact outcome_followedBy (ih s) fun b s => applied op n [b] s
  | binary op n t u left right =>
    rw [withoutOffsets, interpret_binary, interpret_binary]
    exact outcome_followedBy (left s) fun a s =>
      outcome_followedBy (right s) fun b s => applied op n [a, b] s

end Tree

namespace Session

open Calculator.Tree (outcome)

/-- A text that is one expression and nothing else comes to what its tree means. -/
theorem result_of_reads {s : Session} (sound : s.Sound) {u : Tree} {text : Text} {d : Cursor}
    (read : Grammar.Reads (.expression .loosest) u (.start text) d) (done : d.rest = []) :
    s.result text = u.interpret s ∧ ∀ e, (s.result text).1 = .error e → e.RefusesWrite := by
  have mirrors := Tree.mirrors_expression sound .loosest (.start text)
  have closes : d.Closes Level.loosest.rank := .of_none (by rw [done, TokenKind.longest?_nil]) _
  rw [read.expression closes] at mirrors
  generalize ended : Grammar.expression actions .loosest s (.start text) = r at mirrors
  cases mirrors with
  | ok sound same =>
    rw [result_of_expression ended fun _ _ => done, same]
    exact ⟨rfl, nofun⟩
  | refused refuses same =>
    rw [result_of_expression ended nofun]
    exact ⟨(same u d rfl).symm, fun e he => Except.error.inj he ▸ refuses⟩

theorem outcome_valued (r : Except Error Binding × Session) :
    outcome (valued r) = ((outcome r).1.map (outcome r).2.read, (outcome r).2) := by
  obtain ⟨_ | b, s⟩ := r <;> rfl

/-- A tree that is printed and evaluated comes to what it means: to the same binding or to the same
refusal of a write, with the same session. -/
theorem evaluate_printed {s : Session} (reached : s.Reachable) {t : Tree} (wellFormed : t.WellFormed) :
    ∀ text ∈ [t.print, t.printFull],
      outcome (s.result text) = outcome (t.interpret s) ∧
      outcome (s.evaluate text) = outcome (s.run [t]) ∧
      ∀ e, (s.evaluate text).1 = .error e → e.RefusesWrite := by
  intro text printed
  obtain ⟨u, d, read, done, alike⟩ := Tree.reads_printed wellFormed printed
  obtain ⟨same, refuses⟩ := result_of_reads reached.sound read done
  have means : outcome (s.result text) = outcome (t.interpret s) := by
    rw [same, ← Tree.outcome_interpret u, ← Tree.outcome_interpret t, alike]
  refine ⟨means, ?_, fun e he => refuses e (valued_eq_error (evaluate_eq s text ▸ he))⟩
  rw [evaluate_eq, run, Tree.interpretAll_singleton, outcome_valued, outcome_valued, means]

/-- A prefix operator inside a power, beside an assignment that needs its parentheses. -/
theorem evaluate_printed_power :
    let t : Tree := .binary .pow 0 (.unary .negate 0 (.number ['2']))
      (.binary .assign 0 (.name ['x']) (.number ['3']))
    Session.initial.Reachable ∧ t.WellFormed ∧
    ∀ text ∈ [t.print, t.printFull],
      outcome (Session.initial.result text) = outcome (t.interpret .initial) ∧
      outcome (Session.initial.evaluate text) = outcome (Session.initial.run [t]) ∧
      ∀ e, (Session.initial.evaluate text).1 = .error e → e.RefusesWrite := by
  intro t
  have wellFormed : t.WellFormed :=
    ⟨rfl, ⟨rfl, rfl, fun h => by cases h⟩, rfl, rfl, rfl⟩
  exact ⟨.initial, wellFormed, evaluate_printed .initial wellFormed⟩

end Session

end Calculator
