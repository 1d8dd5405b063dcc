import CardImport.Command.Config
import CardImport.Command.Import
import CardImport.Command.Status
import CardImport.Command.Takes

/-!
# Running a command line

The first words choose the command. The settings are read once the first word is known to be a
command, and before its own words are looked at.
-/

namespace CardImport.Command

def verboseOptions : List OptionSpec := [
  ⟨"--verbose", "verbose", .flag true⟩,
  ⟨"-v", "verbose", .flag true⟩]

def jsonOption : OptionSpec := ⟨"--json", "json", .flag true⟩

def importSpecs : List OptionSpec := [
  ⟨"--subdir", "subdir", .value⟩,
  ⟨"--select", "select", .value⟩,
  ⟨"--scene", "scene", .value⟩,
  ⟨"--start-num", "start-num", .value⟩,
  ⟨"--all", "all", .flag true⟩,
  ⟨"--dry-run", "dry-run", .flag true⟩,
  jsonOption]

def editSpecs : List OptionSpec := [
  ⟨"--scene", "scene", .value⟩,
  ⟨"--num", "num", .value⟩,
  ⟨"--clip-name", "clip-name", .value⟩,
  ⟨"--select", "select", .flag true⟩,
  ⟨"--no-select", "select", .flag false⟩]

def deleteSpecs : List OptionSpec := [⟨"--yes", "yes", .flag true⟩]

/-- The options of an import; none if the words do not fit. -/
def importOptions? (words : List String) : Option ImportOptions := do
  let w ← Words.parse? importSpecs true words
  let startNum ← match w.value? "start-num" with
    | none => some none
    | some text => (Number.readWhole text.toList).toOption.map some
  let path ← match w.arguments with
    | [] => some none
    | [path] => some (some path)
    | _ => none
  return {
    path
    subdirectory := w.value? "subdir"
    selects := w.values "select"
    scene := w.value? "scene"
    startNum
    all := w.isSet "all"
    dryRun := w.isSet "dry-run"
    json := w.isSet "json" }

variable {m : Type → Type} [Monad m] [Console m]

/-- Goes on with words that take a flag for JSON and nothing else. -/
def withJson (words : List String) (next : Bool → Step m Exit) : Step m Exit :=
  match Words.parse? [jsonOption] true words with
  | some ⟨options, []⟩ => next (Words.isSet ⟨options, []⟩ "json")
  | _ => return .usage

def runDelete (limit : Nat) (e : Endpoint) (words : List String) : Step m Exit := do
  match Words.parse? deleteSpecs true words with
  | some w =>
    match w.arguments with
    | scene :: num :: rest =>
      let agreed ← if w.isSet "yes" then pure true else confirm deleteQuestion limit
      if !agreed then return failed
      else if rest.isEmpty then deleteTake e (TakeId.ofText scene num)
      else return .usage
    | _ => return .usage
  | none => return .usage

def runEdit (e : Endpoint) (words : List String) : Step m Exit := do
  match Words.parse? editSpecs true words with
  | some w =>
    match w.arguments with
    | [scene, num] =>
      editTake e (TakeId.ofText scene num) {
        scene := (w.value? "scene").map .str
        num := (w.value? "num").map .str
        clipName := (w.value? "clip-name").map .str
        select := w.flag? "select" }
    | _ => return .usage
  | none => return .usage

def runShow (e : Endpoint) (words : List String) : Step m Exit := do
  match Words.parse? [] true words with
  | some ⟨_, [scene, num]⟩ => showTake e (TakeId.ofText scene num)
  | _ => return .usage

def runTakes (limit : Nat) (e : Endpoint) (words : List String) : Step m Exit :=
  match Words.parse? [] false words with
  | some ⟨_, "list" :: rest⟩ => withJson rest (listTakes e)
  | some ⟨_, "show" :: rest⟩ => runShow e rest
  | some ⟨_, "edit" :: rest⟩ => runEdit e rest
  | some ⟨_, "delete" :: rest⟩ => runDelete limit e rest
  | _ => return .usage

def runConfig (s : Settings) (words : List String) : Step m Exit :=
  match Words.parse? [jsonOption] false words with
  | some ⟨options, []⟩ => showSettings (Words.isSet ⟨options, []⟩ "json") s
  | some ⟨_, "set" :: rest⟩ =>
    match Words.parse? [] true rest with
    | some ⟨_, [key, value]⟩ => setSetting s key value
    | _ => return .usage
  | _ => return .usage

variable [Json.Nesting]

/-- Runs a command line. `limit` bounds the steps of an import and the questions that are asked
again. -/
def run (limit : Nat) (words : List String) : Step m Exit :=
  match Words.parse? verboseOptions false words with
  | some ⟨_, command :: rest⟩ =>
    if ["import", "status", "takes", "config"].contains command then do
      let s ← loadSettings
      let e := endpointOf s
      match command with
      | "import" =>
        match importOptions? rest with
        | some o => importCommand limit s o
        | none => return .usage
      | "status" => withJson rest (statusCommand e)
      | "takes" => runTakes limit e rest
      | _ => runConfig s rest
    else return .usage
  | _ => return .usage

end CardImport.Command
