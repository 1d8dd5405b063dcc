import CardImport.Event
import CardImport.Json.Printer

/-!
# Consoles

What a command can do to the outside: reach the server, show what happens, write a report, ask a
question and use the two files in the home directory.
-/

namespace CardImport

inductive HomeFile where
  | settings | memory
deriving DecidableEq, Repr

class Console (m : Type → Type) extends Network m where
  emit : Event → m Unit
  /-- What the terminal finds wrong with the styles in a text. -/
  fault? : String → m (Option String)
  /-- Writes a text to the standard output as it is. -/
  write : String → m Unit
  /-- Asks a question and reads a line; none at the end of the input. -/
  ask : String → m (Option String)
  /-- The home directory. -/
  home : m String
  readFile : HomeFile → m (Option ByteArray)
  /-- Writes a file; false if that cannot be done. -/
  writeFile : HomeFile → String → m Bool

namespace Command

open Console

variable {m : Type → Type} [Monad m] [Console m]

/-- What a command comes to: an exit code, or words that do not fit it. -/
inductive Exit where
  | code (n : Nat)
  | usage
deriving DecidableEq, Repr

abbrev Step (m : Type → Type) := ExceptT Failure m

def success : Exit := .code 0

def failed : Exit := .code 1

def readMarkup : List String → Step m Unit
  | [] => return
  | text :: rest => do
    match ← ExceptT.lift (Console.fault? (m := m) text) with
    | some message => throw (.badMarkup message)
    | none => readMarkup rest

/-- Shows an event, or nothing of it if a text in it cannot be read. -/
def emit (e : Event) : Step m Unit := do
  readMarkup e.markup
  ExceptT.lift (Console.emit e)

def print (text : String) : Step m Unit := emit (.print text)

def echo (text : String) : Step m Unit := ExceptT.lift (Console.write (text ++ "\n"))

/-- Writes a value as a report of several lines. -/
def report (value : Json) : Step m Unit := echo (value.write .report)

/-- Writes a value as a report of one line. -/
def reportLine (value : Json) : Step m Unit := echo (value.write .line)

/-- Reports that the command failed, in the mode that was asked for. -/
def fail (json : Bool) (message : String) : Step m Exit := do
  if json then reportLine (.obj [("error", .str message)])
  else print ("[red]Error: " ++ message ++ "[/red]")
  return failed

/-- Reports a failure that is meant for the operator; any other goes on. -/
def refuse (json : Bool) (f : Failure) : Step m Exit :=
  if f.kind.isReported then fail json f.message else throw f

/-- Reports the failures that are meant for the operator, and goes on otherwise. -/
def reported {α : Type} (json : Bool) (x : Step m α) (next : α → Step m Exit) : Step m Exit := do
  match ← Network.attempt x with
  | .ok a => next a
  | .error f => refuse json f

end Command

end CardImport
