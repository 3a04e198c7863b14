import Calculator.Console.Basic

/-!
# Command line

The program evaluates the text behind `--eval` (`-e`), else the contents of a file, else the lines
of its standard input. `CommandLine.execute` is the program as a function of its arguments, the
files and the input.
-/

namespace Calculator

namespace Console

inductive ReadFault where
  | notFound
  | malformedUtf8
  | other (description : Text)
deriving DecidableEq, Repr

def ReadFault.message : ReadFault → Text
  | notFound => "No such file or directory (os error 2)".toList
  | malformedUtf8 => "stream did not contain valid UTF-8".toList
  | other description => description

/-- An exit status with what was written before. -/
structure Completion where
  status : Nat
  output : Output
deriving DecidableEq, Repr

def runOnce (source name : Text) : Completion :=
  let (status, output, _) := run .initial source name
  ⟨status, output⟩

def readFaultStatus : Nat := 66

def fileText (bytes : Except ReadFault (List UInt8)) : Except ReadFault Text :=
  bytes.bind fun bytes =>
    match Text.ofUtf8? bytes with
    | some t => .ok t
    | none => .error .malformedUtf8

def runFile (name : Text) (bytes : Except ReadFault (List UInt8)) : Completion :=
  match fileText bytes with
  | .ok source => runOnce source name
  | .error fault =>
    ⟨readFaultStatus,
      ⟨[], "reading `".toList ++ name ++ "` failed: ".toList ++ fault.message ++ ['\n']⟩⟩

def inputFaultStatus : Nat := 1

def inputFaultReport : Text :=
  "i/o failed: ".toList ++ ReadFault.malformedUtf8.message ++ ['\n']

def Transcript.completion (t : Transcript) : Completion :=
  if t.malformed then ⟨inputFaultStatus, t.output ++ ⟨[], inputFaultReport⟩⟩ else ⟨0, t.output⟩

end Console

namespace CommandLine

open Console

inductive Request where
  | evaluate (source : Text)
  | file (name : Text)
  | interactive
deriving DecidableEq, Repr

structure Arguments where
  source? : Option Text
  file? : Option Text
deriving DecidableEq, Repr

namespace Arguments

/-- A second text to evaluate is refused. -/
def addSource? (a : Arguments) (source : Text) : Option Arguments :=
  if a.source?.isSome then none else some { a with source? := some source }

/-- A second file is refused, and so is an empty name. -/
def addFile? (a : Arguments) (name : Text) : Option Arguments :=
  if a.file?.isSome || name.isEmpty then none else some { a with file? := some name }

def addFiles? (a : Arguments) : List Text → Option Arguments
  | [] => some a
  | name :: rest => (a.addFile? name).bind (addFiles? · rest)

/-- A text to evaluate wins over a file. -/
def request (a : Arguments) : Request :=
  match a.source?, a.file? with
  | some source, _ => .evaluate source
  | none, some name => .file name
  | none, none => .interactive

end Arguments

/-- A lone hyphen is a file name. -/
def isOption : Text → Bool
  | '-' :: _ :: _ => true
  | _ => false

/-- The text that is attached to an option in the same argument; after `-e`, an equals sign may
stand before it. -/
def attached? : Text → Option Text
  | '-' :: 'e' :: '=' :: source => some source
  | '-' :: 'e' :: c :: source => some (c :: source)
  | '-' :: '-' :: 'e' :: 'v' :: 'a' :: 'l' :: '=' :: source => some source
  | _ => none

/-- Does the text to evaluate follow in the next argument? -/
def isDetached (argument : Text) : Bool :=
  argument = ['-', 'e'] || argument = ['-', '-', 'e', 'v', 'a', 'l']

def readFrom? (a : Arguments) : List Text → Option Arguments
  | [] => some a
  | argument :: rest =>
    if argument = ['-', '-'] then a.addFiles? rest
    else if isDetached argument then
      match rest with
      | source :: rest =>
        if isOption source then none else (a.addSource? source).bind (readFrom? · rest)
      | [] => none
    else
      match attached? argument with
      | some source => (a.addSource? source).bind (readFrom? · rest)
      | none => if isOption argument then none else (a.addFile? argument).bind (readFrom? · rest)

/-- What a list of arguments asks for; `none` if it is refused. -/
def request? (arguments : List Text) : Option Request :=
  (readFrom? ⟨none, none⟩ arguments).map Arguments.request

def usageStatus : Nat := 2

def usage : Text :=
  "usage: [-e TEXT | --eval TEXT] [FILE]\n".toList

def execute (arguments : List Text) (file : Text → Except ReadFault (List UInt8))
    (input : List UInt8) : Completion :=
  match request? arguments with
  | some (.evaluate source) => runOnce source "<eval>".toList
  | some (.file name) => runFile name (file name)
  | some .interactive => (repl .initial input).completion
  | none => ⟨usageStatus, ⟨[], usage⟩⟩

end CommandLine

end Calculator
