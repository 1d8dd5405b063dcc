import CardImport.Command.Console
import CardImport.TakeEditor

/-!
# The commands on takes

List, show, edit and delete recorded takes.
-/

namespace CardImport.Command

open Network

def takeRow (t : Take) : Except Failure (List String) :=
  Table.row [t.id.num, t.clipName, Table.mark "*" t.select]

def sceneTable (g : SceneGroup) : Except Failure Table := do
  return ⟨"Scene " ++ g.scene.text, ["Take", "Clip", "Select"], ← g.takes.mapM takeRow⟩

variable {m : Type → Type} [Monad m] [Console m]

/-- Shows a table for each scene; one that cannot be made ends it after those before it. -/
def showTables : List SceneGroup → Step m Unit
  | [] => return
  | g :: gs => do
    emit (.table (← sceneTable g))
    showTables gs

def listTakes (e : Endpoint) (json : Bool) : Step m Exit :=
  reported json (perform e Registry.list) fun takes => do
    if json then report (.arr (takes.map Take.toJson))
    else if takes.isEmpty then print "No takes recorded"
    else showTables (groupByScene takes)
    return success

def showTake (e : Endpoint) (id : TakeId) : Step m Exit :=
  reported false (TakeEditor.load e id) fun t => do
    print ("[bold]Take " ++ t.id.text ++ "[/bold]")
    print ("  Clip: " ++ (if t.clipName.truthy then t.clipName.text else "-"))
    print ("  Select: " ++ (if t.select then "yes" else "no"))
    return success

def editTake (e : Endpoint) (id : TakeId) (changes : TakeChanges) : Step m Exit :=
  reported false (TakeEditor.save e id changes) fun t => do
    print ("[green]✓ Saved take " ++ t.id.text ++ "[/green]")
    return success

/-! ## Deleting -/

/-- The answer to a question, in any case and with white space around it. -/
def yesOrNo? (line : String) : Option Bool :=
  let word := String.ofList (Text.strip (line.toList.map Char.toLower))
  if word = "y" ∨ word = "yes" then some true
  else if word = "n" ∨ word = "no" ∨ word = "" then some false
  else none

/-- Asks until the answer is yes or no, at most `limit` times. The end of the input means no. -/
def confirm (question : String) : Nat → Step m Bool
  | 0 => throw .unfinished
  | limit + 1 => do
    match ← ExceptT.lift (Console.ask (m := m) question) with
    | none => return false
    | some line =>
      match yesOrNo? line with
      | some answer => return answer
      | none => do
        echo "Error: invalid input"
        confirm question limit

def deleteQuestion : String := "Delete this take? [y/N]:"

def deleteTake (e : Endpoint) (id : TakeId) : Step m Exit :=
  reported false (TakeEditor.destroy e id) fun _ => do
    print ("[green]✓ Deleted take " ++ id.text ++ "[/green]")
    return success

end CardImport.Command
