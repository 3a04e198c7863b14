import Calculator.Text.Basic

/-!
# Blanks

The characters with the Unicode property `White_Space`. They may stand between any two tokens.
-/

namespace Calculator.Text

/-- The 25 characters of `White_Space`. -/
def isBlank (c : Char) : Bool :=
  let n := c.toNat
  (0x09 ≤ n && n ≤ 0x0D) || n == 0x20 || n == 0x85 || n == 0xA0 || n == 0x1680 ||
    (0x2000 ≤ n && n ≤ 0x200A) || n == 0x2028 || n == 0x2029 || n == 0x202F || n == 0x205F ||
    n == 0x3000

def leadingBlank (t : Text) : Text :=
  t.takeWhile isBlank

def dropBlank (t : Text) : Text :=
  t.dropWhile isBlank

theorem leadingBlank_append_dropBlank (t : Text) : leadingBlank t ++ dropBlank t = t :=
  List.takeWhile_append_dropWhile

theorem length_dropBlank_le (t : Text) : (dropBlank t).length ≤ t.length := by
  have h := congrArg List.length (leadingBlank_append_dropBlank t)
  rw [List.length_append] at h
  omega

def trimEnd (t : Text) : Text :=
  (t.reverse.dropWhile isBlank).reverse

/-- Without the blanks at both ends. -/
def trim (t : Text) : Text :=
  trimEnd (dropBlank t)

/-- Without any blanks. -/
def ink (t : Text) : Text :=
  t.filter fun c => !isBlank c

/-- The offset of the character number `n`, blanks not counted, or of the end if there are only `n`
of them. -/
def InkAt (t : Text) (n offset : Nat) : Prop :=
  ∃ front ahead, t = front ++ ahead ∧ offset = extent front ∧ (ink front).length = n ∧
    ∀ c rest, ahead = c :: rest → ¬ isBlank c

end Calculator.Text
