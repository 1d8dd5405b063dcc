import CardImport.Command.Console
import CardImport.Settings.File

/-!
# The commands on settings

Show all settings, and change one of them for good.
-/

namespace CardImport.Command

variable {m : Type → Type} [Monad m] [Console m]

def settingText (value : Json) : String :=
  match value with
  | .str "" => "[not set]"
  | value => value.text

def showFields (sectionName : String) : List (String × Json) → Step m Unit
  | [] => return
  | (name, value) :: rest => do
    print ("  " ++ sectionName ++ "." ++ name ++ ": " ++ settingText value)
    showFields sectionName rest

/-- Shows the sections; what is no section is left out. -/
def showSections : List (String × Json) → Step m Unit
  | [] => return
  | (name, .obj fields) :: rest => do
    print ("[cyan]" ++ name ++ ":[/cyan]")
    showFields name fields
    emit .blankLine
    showSections rest
  | _ :: rest => showSections rest

def showSettings (json : Bool) (s : Settings) : Step m Exit := do
  if json then report s.toJson
  else
    print "[bold]Current Configuration[/bold]"
    emit .blankLine
    showSections (s.toJson.fields?.getD [])
    print "[dim]Use 'clipingest config set <key> <value>' to change settings[/dim]"
  return success

def setSetting (s : Settings) (key value : String) : Step m Exit := do
  match s.set key (.str value) with
  | .ok s =>
    if ← ExceptT.lift (Console.writeFile (m := m) .settings s.fileText) then
      print ("[green]✓ Set " ++ key ++ " = " ++ value ++ "[/green]")
      return success
    else throw (.system "<os>")
  | .error f =>
    if f.kind = .lookup ∨ f.kind = .value then
      print ("[red]Error: " ++ f.message ++ "[/red]")
      return failed
    else throw f

variable [Json.Nesting]

def loadSettings : Step m Settings := do
  let path := Settings.filePath (← ExceptT.lift (Console.home (m := m)))
  Network.settle (Settings.load path (← ExceptT.lift (Console.readFile (m := m) .settings)))

end CardImport.Command
