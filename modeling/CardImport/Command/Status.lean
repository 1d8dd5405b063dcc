import CardImport.Command.Console
import CardImport.Job.Client
import CardImport.Size

/-!
# The status command

Shows whether a job runs, how far it is, and how clips ended.
-/

namespace CardImport.Command

open Network

def statusReport (s : JobStatus) : Json :=
  .obj [
    ("enabled", .bool s.enabled),
    ("active", .bool s.active),
    ("bytes_copied", .int s.bytesCopied),
    ("bytes_total", .int s.bytesTotal),
    ("eta", match s.eta with
      | some t => .str t.text
      | none => .null),
    ("pending", .arr (s.pending.map (·.name))),
    ("results", .arr (s.results.map fun r => .obj [("clip", r.clip.name), ("error", r.error)]))]

def resultRow (r : ClipResult) : Except Failure (List String) :=
  Table.row [r.clip.name,
    .str (if r.succeeded then "[green]ok[/green]" else "[red]" ++ r.error.text ++ "[/red]")]

def resultTable (results : List ClipResult) : Except Failure Table := do
  return ⟨"Results", ["Clip", "Result"], ← results.mapM resultRow⟩

variable {m : Type → Type} [Monad m] [Console m]

def showStatus (s : JobStatus) : Step m Exit := do
  if !s.enabled then print "[yellow]Imports are disabled on the server[/yellow]"
  if s.active then
    print "[bold]Import in progress[/bold]"
    let copied ← numberResult (Size.text (.whole s.bytesCopied))
    let total ← numberResult (Size.text (.whole s.bytesTotal))
    print ("  Copied: " ++ copied ++ " of " ++ total)
    if let some t := s.eta then print ("  ETA: " ++ t.clockText)
    if let c :: _ := s.pending then
      let remaining := toString s.pending.length
      print ("  Current clip: " ++ c.name.text ++ " (" ++ remaining ++ " remaining)")
  else print "No import running"
  if !s.results.isEmpty then emit (.table (← resultTable s.results))
  return success

def statusCommand (e : Endpoint) (json : Bool) : Step m Exit :=
  reported json (perform e Job.status) fun s => do
    if json then
      report (statusReport s)
      return success
    else showStatus s

end CardImport.Command
