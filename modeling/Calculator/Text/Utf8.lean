import Calculator.Text.Basic
import Calculator.Text.Cut

/-!
# UTF-8

Bytes become text when they are well-formed UTF-8 from the first to the last. `byteLines` cuts
them into lines before they are read.
-/

namespace Calculator.Text

def ofUtf8? (bytes : List UInt8) : Option Text :=
  (String.fromUTF8? ⟨bytes.toArray⟩).map String.toList

/-- Lines of bytes, with their line feeds. -/
def byteLines (bytes : List UInt8) : List (List UInt8) :=
  cutAfter 0x0A bytes

end Calculator.Text
