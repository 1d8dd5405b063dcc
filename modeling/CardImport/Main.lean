import CardImport.Command.Run
import CardImport.Help
import CardImport.Http.Message
import CardImport.Terminal
import Std.Async.DNS
import Std.Async.TCP
import Std.Async.Timer

/-!
# The program

Runs a command line on the terminal it was started from: the server is reached over the network,
the two files are in the home directory, and waits take their time.
-/

namespace CardImport

open Std.Async Std.Net

/-! ## The network -/

namespace Http

/-- How many bytes are received at a time. -/
def blockSize : UInt64 := 65536

partial def receiveAll (socket : TCP.Socket.Client) (received : ByteArray) : Async ByteArray := do
  match ← socket.recv? blockSize with
  | some block => receiveAll socket (received ++ block)
  | none => return received

def converse (a : Address) (message : ByteArray) : Async ByteArray := do
  match (← DNS.getAddrInfo a.host (toString a.port))[0]? with
  | none => throw (IO.userError "unknown host")
  | some ip =>
    let socket ← TCP.Socket.Client.mk
    let port := a.port.toUInt16
    socket.connect (match ip with
      | .v4 addr => .v4 ⟨addr, port⟩
      | .v6 addr => .v6 ⟨addr, port⟩)
    socket.send message
    receiveAll socket ByteArray.empty

def afterDelay (milliseconds : Nat) : Async ByteArray := do
  (← Sleep.mk (Std.Time.Millisecond.Offset.ofNat milliseconds)).wait
  throw (IO.userError "timed out")

/-- Sends a request; a server that cannot be reached in time has no answer. -/
def exchange (r : Request) (milliseconds : Nat) : IO Reply := do
  match refusal? r, Address.ofUrl? r.url with
  | some message, _ => return .unsent message
  | none, none => return .unreachable "no plain HTTP address"
  | none, some a =>
    let a := a.withParams r.params
    try
      let bytes ← (Async.race (converse a (requestBytes r a)) (afterDelay milliseconds)).block
      return (answer? bytes).getD (.unreachable "bad reply")
    catch e => return .unreachable (toString e)

end Http

/-! ## The terminal -/

structure Setup where
  home : String
  /-- Whether all entries of the journal are shown. -/
  verbose : Bool

abbrev Live := ReaderT Setup IO

namespace Live

def milliseconds (seconds : Number) : Nat :=
  match seconds.mul (.whole 1000) >>= Number.toWhole with
  | .ok n => n.toNat
  | .error _ => 0

def pathOf (home : String) : HomeFile → String
  | .settings => Settings.filePath home
  | .memory => Memory.filePath home

def directoryOf (path : String) : String :=
  String.ofList ((path.toList.reverse.dropWhile (· != '/')).drop 1).reverse

def showEntry (e : Entry) : Live Unit := do
  if (← read).verbose || e.level != .info then
    IO.eprintln (e.level.name ++ " " ++ e.source.name ++ ": " ++ e.message)

def showEvent (e : Event) : Live Unit := do
  match e with
  | .note entry => showEntry entry
  | .wait delay => IO.sleep (milliseconds delay).toUInt32
  | e =>
    for line in Terminal.linesOf e do
      IO.println line

def askLine (question : String) : IO (Option String) := do
  let output ← IO.getStdout
  output.putStr (question ++ " ")
  output.flush
  let line ← (← IO.getStdin).getLine
  return if line.isEmpty then none else some line

def readHomeFile (path : String) : IO (Option ByteArray) := do
  try return some (← IO.FS.readBinFile path)
  catch _ => return none

def writeHomeFile (path text : String) : IO Bool := do
  try
    IO.FS.createDirAll (directoryOf path)
    IO.FS.writeFile path text
    return true
  catch _ => return false

instance : Console Live where
  exchange r := Http.exchange r (milliseconds r.timeout)
  note := showEntry
  emit := showEvent
  fault? _ := return none
  write text := do (← IO.getStdout).putStr text
  ask question := askLine question
  home := do return (← read).home
  readFile file := do readHomeFile (pathOf (← read).home file)
  writeFile file text := do writeHomeFile (pathOf (← read).home file) text

end Live

/-! ## Exit codes -/

/-- More steps than an import takes. -/
def stepLimit : Nat := 1000000000000

def usageCode : UInt32 := 2

def showUsage : IO Unit := do
  let language := Language.ofEnvironment (← IO.getEnv "LC_ALL") (← IO.getEnv "LANG")
  match Help.text language "cli.description" with
  | .ok text => IO.eprintln text
  | .error f => IO.eprintln f.message

def isVerbose (words : List String) : Bool :=
  (Command.Words.parse? Command.verboseOptions false words).any (·.isSet "verbose")

def runProgram (words : List String) : IO UInt32 := do
  let setup : Setup := { home := (← IO.getEnv "HOME").getD "", verbose := isVerbose words }
  match ← ((Command.run (m := Live) stepLimit words).run).run setup with
  | .ok (.code n) => return n.toUInt32
  | .ok .usage => do
    showUsage
    return usageCode
  | .error f => do
    IO.eprintln f.message
    return 1

end CardImport

def main (words : List String) : IO UInt32 := CardImport.runProgram words
