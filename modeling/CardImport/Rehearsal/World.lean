import CardImport.Command.Console
import CardImport.Rehearsal.Script

/-!
# Worlds for commands

A world is all that a command meets: a server that answers depending on what it was asked before,
the libraries that send requests and show texts, the two files, the lines of the standard input and
what was written. Waits take no time.
-/

namespace CardImport

structure World (σ : Type) where
  serve : σ → Request → Reply × σ
  server : σ
  libraries : Libraries := {}
  home : String
  settingsFile : Option ByteArray := none
  memoryFile : Option ByteArray := none
  /-- Whether the memory file cannot be written. -/
  memoryBlocked : Bool := false
  input : List String := []
  /-- What was written to the standard output. -/
  output : String := ""
  /-- What happened, the last first. -/
  happened : List Event := []
  /-- The requests with what came back, the last first. -/
  replies : List (Request × Reply) := []
  /-- The texts in which styles were read, the last first. -/
  styled : List String := []

namespace World

variable {σ : Type}

def record (e : Event) (w : World σ) : World σ := { w with happened := e :: w.happened }

def exchange (r : Request) (w : World σ) : Reply × World σ :=
  match w.libraries.refusal? r with
  | some message => (.unsent message, { w with replies := (r, .unsent message) :: w.replies })
  | none =>
    let (reply, server) := w.serve w.server r
    (reply, { w with server, replies := (r, reply) :: w.replies }.record (.request r))

def fault? (text : String) (w : World σ) : Option String × World σ :=
  (w.libraries.fault? text, { w with styled := text :: w.styled })

def ask (question : String) (w : World σ) : Option String × World σ :=
  match w.input with
  | [] => (none, { w with output := w.output ++ question ++ " " })
  | line :: rest =>
    (some line, { w with input := rest, output := w.output ++ question ++ " " ++ line ++ "\n" })

def readFile (w : World σ) : HomeFile → Option ByteArray
  | .settings => w.settingsFile
  | .memory => w.memoryFile

def writeFile (file : HomeFile) (text : String) (w : World σ) : Bool × World σ :=
  match file with
  | .settings => (true, { w with settingsFile := some text.toUTF8 })
  | .memory =>
    if w.memoryBlocked then (false, w) else (true, { w with memoryFile := some text.toUTF8 })

instance : Console (StateM (World σ)) where
  exchange r := modifyGet (exchange r)
  note e := modify (record (.note e))
  emit e := modify (record e)
  fault? text := modifyGet (fault? text)
  write text := modify fun w => { w with output := w.output ++ text }
  ask question := modifyGet (ask question)
  home := do return (← get).home
  readFile file := do return (← get).readFile file
  writeFile file text := modifyGet (writeFile file text)

def serveScript (script : Script) (r : Request) : Reply × Script :=
  let (prepared, script) := script.take (Script.routeOf r)
  (prepared.reply, script)

end World

end CardImport
