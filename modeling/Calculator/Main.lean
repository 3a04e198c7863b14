import Calculator.Console.CommandLine

/-!
# The program

Reads arguments, files and the standard input, and writes what the command line decides. Lines are
answered one at a time, as they come.
-/

namespace Calculator.Main

open Console

def emit (o : Output) : IO Unit := do
  let stdout ← IO.getStdout
  stdout.putStr (String.ofList o.out)
  stdout.flush
  let stderr ← IO.getStderr
  stderr.putStr (String.ofList o.err)
  stderr.flush

def finish (c : Completion) : IO UInt32 := do
  emit c.output
  return c.status.toUInt32

/-- The bytes up to and with the next line feed, latest first. -/
partial def readLine (stdin : IO.FS.Stream) (bytes : List UInt8) : IO (List UInt8) := do
  match (← stdin.read 1).toList with
  | b :: _ => if b = 0x0A then return b :: bytes else readLine stdin (b :: bytes)
  | [] => return bytes

partial def interact (stdin : IO.FS.Stream) (s : Session) : IO UInt32 := do
  emit prompt
  match (← readLine stdin []).reverse with
  | [] => return 0
  | bytes =>
    match Text.ofUtf8? bytes with
    | some line =>
      let (output, s) := answer s line
      emit output
      interact stdin s
    | none => finish (Transcript.completion ⟨.empty, s, true⟩)

def readFile (name : Text) : IO (Except ReadFault (List UInt8)) := do
  try
    return .ok (← IO.FS.readBinFile (String.ofList name)).toList
  catch
    | .noFileOrDirectory .. => return .error .notFound
    | e => return .error (.other (toString e).toList)

end Calculator.Main

open Calculator in
def main (arguments : List String) : IO UInt32 := do
  match CommandLine.request? (arguments.map String.toList) with
  | some (.evaluate source) => Main.finish (Console.runOnce source "<eval>".toList)
  | some (.file name) => Main.finish (Console.runFile name (← Main.readFile name))
  | some .interactive => Main.interact (← IO.getStdin) .initial
  | none => Main.finish ⟨CommandLine.usageStatus, ⟨[], CommandLine.usage⟩⟩
