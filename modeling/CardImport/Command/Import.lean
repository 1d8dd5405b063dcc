import CardImport.Command.Console
import CardImport.Command.Words
import CardImport.Memory
import CardImport.Session.Control
import CardImport.Settings.Basic
import CardImport.Size

/-!
# The import command

Opens a path, edits the list, submits the batch and follows the job. The exit code tells whether an
item ended in an error.
-/

namespace CardImport.Command

open Network

/-! ## Running a session -/

/-- A session with the memory that goes with it, and what is shown of it. -/
structure Running where
  control : Control
  memory : Memory
  /-- What is being copied, as the progress tells it. -/
  described : Json := .str "Copying"

section
variable {m : Type → Type} [Monad m] [Console m]

def description (status : JobStatus) : Json :=
  match status.pending with
  | c :: _ => c.name
  | [] => .str "Copying"

/-- What is shown of the progress after a merge: the percentage, all of it while no job runs. -/
def progressEvent (s : Session) (status : JobStatus) : Event :=
  let percent := match Progress.percentage? s.progress with
    | .ok (some n) => n
    | _ => 100
  .progress percent (description status)

/-- The text before the percentage. -/
def Running.label (r : Running) : String := "[bold blue]" ++ r.described.text

/-- The terminal reads the label of the progress when it begins and when it ends to show it. -/
def readLabel (r : Running) : Step m Unit := readMarkup [r.label]

/-- Whether the progress is shown from the first step of a task on: if the task is the poll. -/
def Running.showsFrom (r : Running) (id : TaskId) : Bool :=
  r.control.showsPercent && match r.control.task? id with
    | some (.poll ..) => true
    | _ => false

/-- Remembers a path; a file that cannot be written is noted. -/
def remember (r : Running) (path : String) : m Running := do
  let memory := r.memory.setLastPath path
  if !(← Console.writeFile .memory memory.fileText) then
    note (Memory.unsaved (Memory.filePath (← Console.home)))
  return { r with memory }

def askServer (e : Endpoint) (q : Query) : m (Except Failure Response) := do
  let request := q.request e
  let reply ← exchange request
  ((settle (Exchange.receive request reply)).run : m (Except Failure Response))

/-- Does what a session asks for, one thing after the other; a wait is over when the clock says
so. `fuel` bounds the number of actions. -/
def follow (e : Endpoint) : Nat → Running → List Action → Step m Running
  | _, r, [] => return r
  | 0, _, _ :: _ => throw .unfinished
  | fuel + 1, r, a :: rest => do
    let go (input : Input) : Step m Running :=
      let (control, actions) := r.control.step input
      follow e fuel { r with control } (actions ++ rest)
    match a with
    | .note entry => do
      ExceptT.lift (note (m := m) entry)
      follow e fuel r rest
    | .ask sender q => do
      let result ← ExceptT.lift (askServer (m := m) e q)
      go (.response sender result)
    | .begin id => do
      if r.showsFrom id then readLabel r
      go (.begin id)
    | .beginLeg id leg => go (.beginLeg id leg)
    | .join id => go (.joined id)
    | .wait id delay => do
      ExceptT.lift (Console.emit (m := m) (.wait delay))
      go (.elapsed id)
    | .halt id => go (.halted id)
    | .remember path => do
      let r ← ExceptT.lift (remember (m := m) r path)
      follow e fuel r rest
    | .merged status => do
      if r.control.showsPercent then
        ExceptT.lift (Console.emit (m := m) (progressEvent r.control.session status))
      follow e fuel { r with described := description status } rest

/-- Gives a session an input and follows it until nothing is left to do. -/
def feed (e : Endpoint) (limit : Nat) (r : Running) (input : Input) : Step m Running :=
  let (control, actions) := r.control.step input
  follow e limit { r with control } actions

end

/-! ## The command -/

structure ImportOptions where
  path : Option String
  subdirectory : Option String
  selects : List String
  scene : Option String
  startNum : Option Int
  all : Bool
  dryRun : Bool
  json : Bool

def itemColumns : List String := ["", "Clip", "Size", "Scene", "Take", "Select", "State"]

def stateText : ItemState → String
  | .ready => "[yellow]ready[/yellow]"
  | .active => "[blue]active[/blue]"
  | .imported => "[green]imported[/green]"
  | .error => "[red]error[/red]"

/-- The row of an item; the size is worked out before the cells are looked at. -/
def itemRow (i : Item) : Except Failure (List String) := do
  let size ← (Size.text (.whole i.clip.totalSize)).mapError .number
  Table.row [Table.mark "x" i.checked, i.clip.name, .str size, i.scene, .str i.num,
    Table.mark "*" i.select, .str (stateText i.state)]

def itemTable (items : List Item) : Except Failure Table := do
  return ⟨"Clips", itemColumns, ← items.mapM itemRow⟩

def itemReport (i : Item) : Json :=
  .obj [("clip", i.clip.name), ("checked", .bool i.checked), ("state", .str i.state.name),
    ("scene", i.scene), ("num", .str i.num), ("select", .bool i.select)]

def importReport (path : String) (items : List Json) : Json :=
  .obj [("path", .str path), ("items", .arr items)]

def batchText (items : List Item) : Except NumberError String := do
  return toString (Items.batch items).length ++ " clips (" ++
    (← Size.text (.whole (Items.checkedTotal items))) ++ ")"

/-! ### Edits from the options -/

def editItems (items : List Item) (edits : List Edit) : Except Failure (List Item) :=
  edits.foldlM (fun items e => match Items.edit items e with
    | (items, .ok ()) => .ok items
    | (_, .error e) => .error (.number e)) items

/-- The edits that options ask for, up to the selects. -/
def optionEdits (o : ImportOptions) : List Edit :=
  (if o.all then [.checkAll] else []) ++
  (match o.scene with
    | some scene => [.setScene 0 (.str scene), .autofillScene 0]
    | none => []) ++
  (match o.startNum with
    | some n => [.setNum 0 (toString n), .autofillNum 0]
    | none => [])

def selectItems (s : Session) : List String → Except Failure Session
  | [] => .ok s
  | name :: rest =>
    match s.find? (.str name) with
    | none => .error (.refused ("Unknown clip: " ++ name))
    | some position => selectItems (s.edit (.setSelect position true)).1 rest

def applyOptions (s : Session) (o : ImportOptions) : Except Failure Session := do
  selectItems { s with items := ← editItems s.items (optionEdits o) } o.selects

section
variable {m : Type → Type} [Monad m] [Console m]

def tableOf (items : List Item) : Step m Unit := do
  emit (.table (← itemTable items))

def showBatch (path : String) (json : Bool) (items : List Item) : Step m Exit := do
  if json then report (importReport path (Items.batch items))
  else
    tableOf items
    print ("Would import " ++ (← numberResult (batchText items)))
  return success

/-- Whether a session may be submitted; none if there is nothing to submit. -/
def submittable (s : Session) : Except Failure Bool :=
  if s.state = .active then .error (.refused "An import is already in progress")
  else if !s.enabled then .error (.refused "Imports are disabled on the server")
  else .ok (Items.anyChecked s.items)

/-- The failure of a batch that was not accepted. -/
def rejected : Failure → Failure
  | .application code message _ =>
    if message.truthy then .refused ("Import rejected: " ++ message.text)
    else if !code.isKey then .wrongType
    else match Job.rejection? code with
      | some text => .refused ("Import rejected: " ++ text)
      | none => .refused ("Import rejected: code " ++ code.text)
  | f => f

def lineOfError (r : ClipResult) : Option String :=
  if r.succeeded then none else some ("  " ++ r.clip.name.text ++ ": " ++ r.error.text)

def showOutcome (path : String) (json : Bool) (s : Session) : Step m Exit := do
  let errors := s.items.filter (·.state = .error)
  if json then report (importReport path (s.items.map itemReport))
  else
    tableOf s.items
    if errors.isEmpty then print "[green]Import complete[/green]"
    else
      print ("[red]" ++ toString errors.length ++ " clips failed to import[/red]")
      for line in ((s.lastStatus.map (·.results)).getD []).filterMap lineOfError do
        print line
  return if errors.isEmpty then success else failed

def loadResult (c : Control) : Except Failure Unit :=
  match c.task? 0 with
  | some (.load (.done result)) => result
  | _ => .error .unfinished

def editedSession (c : Control) (path : String) (o : ImportOptions) : Except Failure Session := do
  loadResult c
  if c.session.state = .noData then .error (.refused ("No clips found in " ++ path))
  else applyOptions c.session o

/-- The outcome of the submission, which comes after the load, and of its poll. -/
def submitResult (c : Control) : Except Failure Unit :=
  match c.task? 1 with
  | some (.submit (.done (.error f))) => .error (rejected f)
  | some (.submit (.done (.ok poll))) =>
    match c.task? poll with
    | some (.poll _ _ (.done result)) => result
    | _ => .error .unfinished
  | _ => .error .unfinished

/-- Whether the batch of a session was accepted, so that its poll was shown. -/
def isAccepted (c : Control) : Bool :=
  match c.task? 1 with
  | some (.submit (.done (.ok _))) => true
  | _ => false

/-- The terminal reads the label of the progress for the last time, if a poll was shown. -/
def readAccepted (r : Running) (json : Bool) : Step m Unit :=
  if !json && isAccepted r.control then readLabel r else pure ()

def submitAndFollow (limit : Nat) (e : Endpoint) (r : Running) (path : String) (json : Bool) :
    Step m (Exit × Control) := do
  let r ← feed e limit r .submit
  readAccepted r json
  submitResult r.control
  return (← showOutcome path json r.control.session, r.control)

/-- Edits the list that was loaded. The import ends here, or it goes on with a session to submit. -/
def prepare (r : Running) (path : String) (o : ImportOptions) :
    Step m (Exit × Control ⊕ Running) := do
  let s ← editedSession r.control path o
  let r := { r with control := r.control.setSession s }
  if o.dryRun then return .inl (← showBatch path o.json s.items, r.control)
  else if !(← submittable s) then
    if o.json then reportLine (importReport path []) else print "[yellow]Nothing to import[/yellow]"
    return .inl (success, r.control)
  else
    if !o.json then
      print ("Importing " ++ (← numberResult (batchText s.items)) ++ " from " ++ path)
    return .inr r

def importPath (limit : Nat) (e : Endpoint) (r : Running) (path : String) (o : ImportOptions) :
    Step m (Exit × Control) := do
  let r ← feed e limit r (.openPath path)
  match ← prepare r path o with
  | .inl ended => return ended
  | .inr r => submitAndFollow limit e r path o.json

def sessionOf (s : ImportSettings) : Except Failure Session := do
  return {
    scene := s.defaultScene
    subdirectory := s.defaultSubdirectory
    pollInterval := ← s.pollSeconds
    maxRetries := s.maxRetries
    maxBackoff := ← s.backoffSeconds }

def endpointOf (s : Settings) : Endpoint := Endpoint.ofUrl s.server.baseUrl s.server.timeout

variable [Json.Nesting]

def loadMemory : Step m Memory := do
  let path := Memory.filePath (← ExceptT.lift (Console.home (m := m)))
  settle (Memory.load path (← ExceptT.lift (Console.readFile (m := m) .memory)))

/-- The subdirectory of the options counts more than that of the settings. -/
def placeIn (o : ImportOptions) (s : Session) : Session :=
  match o.subdirectory with
  | some d => { s with subdirectory := .str d }
  | none => s

/-- The path of the options, or else the one that a session suggests. -/
def choosePath (o : ImportOptions) (s : Session) (memory : Memory) : String :=
  match o.path with
  | some p => if p = "" then s.suggestedPath memory.lastPath? else p
  | none => s.suggestedPath memory.lastPath?

/-- What the command comes to, and the session that it ends with if it was not refused. -/
def importSession (limit : Nat) (settings : Settings) (o : ImportOptions) :
    Step m (Exit × Option Control) := do
  if !o.json then emit (.progressTask "Copying" 100)
  let memory ← loadMemory
  let s := placeIn o (← sessionOf settings.importing)
  let path := choosePath o s memory
  if path = "" then
    return (← fail o.json "No path given and no previous import path remembered", none)
  else
    let control : Control := { session := s, showsPercent := !o.json }
    match ← attempt (importPath limit (endpointOf settings) { control, memory } path o) with
    | .ok (exit, control) => return (exit, some control)
    | .error f => return (← refuse o.json f, none)

def importCommand (limit : Nat) (settings : Settings) (o : ImportOptions) : Step m Exit := do
  return (← importSession limit settings o).1

end

end CardImport.Command
