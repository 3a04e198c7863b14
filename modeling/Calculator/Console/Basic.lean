import Calculator.Number.Shortest
import Calculator.Report
import Calculator.Session
import Calculator.Text.Utf8

/-!
# Console

`Console.run` evaluates one text and `Console.repl` one line after the other, in one session.
Values go to the standard output and error reports to the standard error.
-/

namespace Calculator

structure Output where
  out : Text
  err : Text
deriving DecidableEq, Repr

namespace Output

def empty : Output :=
  ⟨[], []⟩

def append (a b : Output) : Output :=
  ⟨a.out ++ b.out, a.err ++ b.err⟩

instance : Append Output := ⟨append⟩

end Output

namespace Console

def evaluationErrorStatus : Nat := 65

def present (outcome : Except Error Float) (source name : Text) : Output :=
  match outcome with
  | .ok v => ⟨formatNumber v ++ ['\n'], []⟩
  | .error e => ⟨[], e.report source name⟩

/-- The exit status, the output and the session after one text. -/
def run (s : Session) (source name : Text) : Nat × Output × Session :=
  let (outcome, s) := s.evaluate source
  (if outcome.isOk then 0 else evaluationErrorStatus, present outcome source name, s)

def prompt : Output :=
  ⟨['>', ' '], []⟩

def inputName : Text :=
  "<stdin>".toList

/-- The answer to one line; blanks at its end do not count, and a blank line has no answer. -/
def answer (s : Session) (line : Text) : Output × Session :=
  let source := Text.trimEnd line
  if source = [] then (.empty, s)
  else
    let (_, output, s) := run s source inputName
    (output, s)

structure Transcript where
  output : Output
  session : Session
  /-- It ended at a line that is not UTF-8. -/
  malformed : Bool

/-- One prompt and the answer, for each line in turn, and a prompt for the line that is not there.
-/
def replLines (s : Session) : List (List UInt8) → Transcript
  | [] => ⟨prompt, s, false⟩
  | bytes :: rest =>
    match Text.ofUtf8? bytes with
    | none => ⟨prompt, s, true⟩
    | some line =>
      let (output, s) := answer s line
      let t := replLines s rest
      { t with output := prompt ++ output ++ t.output }

def repl (s : Session) (input : List UInt8) : Transcript :=
  replLines s (Text.byteLines input)

end Console

end Calculator
