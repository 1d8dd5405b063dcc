import CardImport.Session.Task

/-!
# Controlling a session

`Control.step` takes a session with its tasks through one input and says what it asks of the
outside. Nothing is assumed about the order of inputs: a response may come at any time, to any task
that waits for one, and an input that no task waits for changes nothing.
-/

namespace CardImport

structure Control where
  session : Session := {}
  /-- All tasks, in the order of creation. -/
  tasks : List Task := []
  /-- The poll of the current session, if one was started. -/
  poller : Option TaskId := none
  /-- Whether the progress is shown in percent after each merge. -/
  showsPercent : Bool := false

namespace Control

def task? (c : Control) (id : TaskId) : Option Task := c.tasks[id]?

def setTask (c : Control) (id : TaskId) (t : Task) : Control :=
  { c with tasks := c.tasks.set id t }

def setSession (c : Control) (s : Session) : Control := { c with session := s }

def spawn (c : Control) (t : Task) : Control × TaskId :=
  ({ c with tasks := c.tasks ++ [t] }, c.tasks.length)

def isDone (c : Control) (id : TaskId) : Bool := (c.task? id).any Task.isDone

/-- Whether the poll of the current session runs. -/
def isPolling (c : Control) : Bool := c.poller.any fun id => !c.isDone id

def notes (entries : List Entry) : List Action := entries.map .note

/-! ## Closing and opening -/

def stopTask : Task → Task
  | .poll session _ stage => .poll session true stage
  | t => t

/-- Ends the session: the poll stops, and what is on its way belongs to an old session. -/
def close (c : Control) : Control × List Action :=
  let closed : Control := { c with
    session := { c.session with number := c.session.number + 1 }
    tasks := match c.poller with
      | some id => c.tasks.modify id stopTask
      | none => c.tasks
    poller := none }
  (closed, match c.poller with
    | some id => [.halt id]
    | none => [])

def openPath (c : Control) (path : String) : Control × List Action :=
  let (c, actions) := c.close
  let c := c.setSession { c.session with path, loading := true }
  let (c, id) := c.spawn (.load .created)
  (c, actions ++ [.remember path, .begin id])

/-! ## Looking at the job -/

/-- A progress that is too large has no percentage to show. -/
def reportable (c : Control) (progress : Number) : Except NumberError Unit :=
  if c.showsPercent then (Progress.percentage? progress).map fun _ => () else .ok ()

def merge (c : Control) (status : JobStatus) : Control × List Action × Except Failure Unit :=
  match c.session.merge status with
  | (s, .error f) => (c.setSession s, [], .error f)
  | (s, .ok ()) =>
    match c.reportable s.progress with
    | .ok () => (c.setSession s, [.merged status], .ok ())
    | .error e => (c.setSession s, [], .error (.number e))

/-- Takes the answer to a status request that was sent in a session. The status of an older
session is not merged. -/
def receiveStatus (c : Control) (session : Nat) (result : Except Failure Response) :
    Control × List Action × Except Failure JobStatus :=
  let (decoded, entries) := (Job.status.finish result).outcome
  match decoded with
  | .error f => (c, notes entries, .error f)
  | .ok status =>
    if session = c.session.number then
      let (c, actions, merged) := c.merge status
      (c, notes entries ++ actions, merged.map fun _ => status)
    else (c, notes entries, .ok status)

def stepRefresh (c : Control) (id : TaskId) (session : Nat) (result : Except Failure Response) :
    Control × List Action :=
  let (c, actions, status) := c.receiveStatus session result
  (c.setTask id (.refresh (.done status)), actions)

/-! ## Loading -/

def loadFailed (f : Failure) : Entry := ⟨.error, .session, "source load failed: " ++ f.message⟩

def statusUnknown (f : Failure) : Entry :=
  ⟨.warning, .session, "Could not fetch import status: " ++ f.message⟩

/-- A load shows its list and goes on to the status of the job. -/
def loaded (c : Control) (id : TaskId) (items : List Item) : Control × List Action :=
  let s := { c.session.install items with loading := false }
  ((c.setSession s).setTask id (.load (.asking s.number)), [.ask (.task id) .status])

/-- The first step of a load. Without a path the list is empty at once. -/
def beginLoad (c : Control) (id : TaskId) : Control × List Action :=
  let s := { c.session with loading := true }
  let c := c.setSession s
  if s.path = "" then c.loaded id []
  else
    (c.setTask id (.load (.listing s.number s.path .created .created)),
      [.beginLeg id .clips, .beginLeg id .takes])

/-- A failure of a listing that leaves an empty list; any other ends the load at once. -/
def isListingFailure (f : Failure) : Bool := f.kind.isReported || f.kind.isBadData

/-- A load goes on with both listings. The list of an older session is dropped. -/
def joinLoad (c : Control) (id : TaskId) (session : Nat) (path : String)
    (clips : Except Failure (List Clip)) (takes : Except Failure (List Take)) :
    Control × List Action :=
  let (result, entries) := (Reconcile.combine c.session.scene path clips takes).outcome
  let finish (r : Except Failure Unit) := c.setTask id (.load (.done r))
  match result with
  | .error f =>
    if !isListingFailure f then (finish (.error f), notes entries)
    else if session ≠ c.session.number then (finish (.ok ()), notes entries)
    else
      let (c, actions) := c.loaded id []
      (c, notes entries ++ .note (loadFailed f) :: actions)
  | .ok items =>
    if session ≠ c.session.number then (finish (.ok ()), notes entries)
    else
      let (c, actions) := c.loaded id items
      (c, notes entries ++ actions)

/-- The last step of a load: the status of the job. A remote failure is noted and otherwise
ignored. -/
def endLoad (c : Control) (id : TaskId) (session : Nat) (result : Except Failure Response) :
    Control × List Action :=
  let (c, actions, status) := c.receiveStatus session result
  match status with
  | .ok _ => (c.setTask id (.load (.done (.ok ()))), actions)
  | .error f =>
    if f.isRemote then
      (c.setTask id (.load (.done (.ok ()))), actions ++ [.note (statusUnknown f)])
    else (c.setTask id (.load (.done (.error f))), actions)

/-! ## Polling -/

/-- Starts the poll of the current session, unless it runs already. -/
def startPolling (c : Control) : Control × TaskId × List Action :=
  match c.poller with
  | some id => if c.isDone id then fresh else (c, id, [])
  | none => fresh
where
  fresh : Control × TaskId × List Action :=
    let (c, id) := c.spawn (.poll c.session.number false .created)
    ({ c with poller := some id }, id, [.begin id])

/-- How long a poll waits after a number of failed looks in a row. -/
def pollDelay (s : Session) (failures : Nat) : Except NumberError Number :=
  if failures = 0 then .ok s.pollInterval else Retry.delay failures s.pollInterval s.maxBackoff

/-- Whether there is a clock time to wait for: a delay above 0 must not be too large for one. -/
def checkDelay (delay : Number) : Except NumberError Unit :=
  if delay.le (.whole 0) then .ok () else delay.toBinary.map fun _ => ()

/-- A poll waits for its next look at the job. -/
def waitPoll (c : Control) (id : TaskId) (session : Nat) (stopped : Bool) (failures : Nat) :
    Control × List Action :=
  let finish (e : NumberError) := c.setTask id (.poll session stopped (.done (.error (.number e))))
  match pollDelay c.session failures with
  | .error e => (finish e, [])
  | .ok delay =>
    match checkDelay delay with
    | .error e => (finish e, [.wait id delay])
    | .ok () => (c.setTask id (.poll session stopped (.waiting failures)), [.wait id delay])

/-- The delay of a poll is over; in an older session this ends it. -/
def wakePoll (c : Control) (id : TaskId) (session : Nat) (stopped : Bool) (failures : Nat) :
    Control × List Action :=
  if stopped || session ≠ c.session.number then
    (c.setTask id (.poll session stopped (.done (.ok ()))), [])
  else (c.setTask id (.poll session stopped (.asking failures)), [.ask (.task id) .status])

def gaveUp (failures : Nat) (f : Failure) : Entry :=
  ⟨.error, .session, "Giving up on import status after " ++ toString failures ++
    " failed polls: " ++ f.message⟩

def retrying (failures : Nat) (limit : Number) (f : Failure) : Entry :=
  ⟨.warning, .session, "Status poll failed (" ++ toString failures ++ "/" ++ limit.text ++
    "), retrying: " ++ f.message⟩

/-- Whether the failed look that is the `failures`-th in a row is the last one. -/
def isLastFailure (s : Session) (failures : Nat) (f : Failure) : Bool :=
  !Retry.isRetryable f || s.maxRetries.lt (.whole failures)

/-- A poll goes on after a look at the job, until the job is idle or the looks keep failing. -/
def stepPoll (c : Control) (id : TaskId) (session : Nat) (stopped : Bool) (failures : Nat)
    (result : Except Failure Response) : Control × List Action :=
  let (c, actions, status) := c.receiveStatus session result
  let finish (c : Control) (r : Except Failure Unit) :=
    c.setTask id (.poll session stopped (.done r))
  match status with
  | .ok _ =>
    if session ≠ c.session.number || c.session.progress.lt (.whole 0) then
      (finish c (.ok ()), actions)
    else
      let (c, waiting) := c.waitPoll id session stopped 0
      (c, actions ++ waiting)
  | .error f =>
    if !f.isRemote then (finish c (.error f), actions)
    else if isLastFailure c.session (failures + 1) f then
      let s := if session = c.session.number then c.session.giveUp else c.session
      (finish (c.setSession s) (.ok ()), actions ++ [.note (gaveUp (failures + 1) f)])
    else
      let entry := retrying (failures + 1) c.session.maxRetries f
      let (c, waiting) := c.waitPoll id session stopped (failures + 1)
      (c, actions ++ .note entry :: waiting)

/-! ## Submitting -/

def submission (s : Session) : Call Unit :=
  Job.start (.str s.path) s.subdirectory (Items.batch s.items)

/-- The first step of a submission fixes the batch and sends it. -/
def beginSubmit (c : Control) (id : TaskId) : Control × List Action :=
  let s := c.session
  (c.setTask id (.submit .asked),
    notes (submission s).before ++
      [.ask (.task id) (.submit s.path s.subdirectory (Items.batch s.items))])

/-- An accepted batch is followed by a poll. -/
def endSubmit (c : Control) (id : TaskId) (result : Except Failure Response) :
    Control × List Action :=
  let (accepted, entries) := (Job.acceptance result).outcome
  match accepted with
  | .error f => (c.setTask id (.submit (.done (.error f))), notes entries)
  | .ok () =>
    let (c, poll, actions) := c.startPolling
    (c.setTask id (.submit (.done (.ok poll))), notes entries ++ actions)

/-! ## Steps -/

def beginTask (c : Control) (id : TaskId) : Control × List Action :=
  match c.task? id with
  | some (.load .created) => c.beginLoad id
  | some (.submit .created) => c.beginSubmit id
  | some (.poll session stopped .created) => c.waitPoll id session stopped 0
  | some (.refresh .created) =>
    (c.setTask id (.refresh (.asking c.session.number)), [.ask (.task id) .status])
  | _ => (c, [])

def beginLeg (c : Control) (id : TaskId) : Leg → Control × List Action
  | .clips =>
    match c.task? id with
    | some (.load (.listing session path .created takes)) =>
      (c.setTask id (.load (.listing session path .asked takes)),
        [.ask (.leg id .clips) (.clips path)])
    | _ => (c, [])
  | .takes =>
    match c.task? id with
    | some (.load (.listing session path clips .created)) =>
      (c.setTask id (.load (.listing session path clips .asked)), [.ask (.leg id .takes) .takes])
    | _ => (c, [])

/-- A load goes on once both listings are done. -/
def joinIfDone (id : TaskId) : LegStage (List Clip) → LegStage (List Take) → List Action
  | .done _, .done _ => [.join id]
  | _, _ => []

def receiveLeg (c : Control) (id : TaskId) (result : Except Failure Response) :
    Leg → Control × List Action
  | .clips =>
    match c.task? id with
    | some (.load (.listing session path .asked takes)) =>
      let (clips, entries) := ((listClips path).finish result).outcome
      let clips := LegStage.done clips
      (c.setTask id (.load (.listing session path clips takes)),
        notes entries ++ joinIfDone id clips takes)
    | _ => (c, [])
  | .takes =>
    match c.task? id with
    | some (.load (.listing session path clips .asked)) =>
      let (takes, entries) := (Registry.list.finish result).outcome
      let takes := LegStage.done takes
      (c.setTask id (.load (.listing session path clips takes)),
        notes entries ++ joinIfDone id clips takes)
    | _ => (c, [])

def receive (c : Control) (id : TaskId) (result : Except Failure Response) :
    Control × List Action :=
  match c.task? id with
  | some (.load (.asking session)) => c.endLoad id session result
  | some (.submit .asked) => c.endSubmit id result
  | some (.poll session stopped (.asking failures)) => c.stepPoll id session stopped failures result
  | some (.refresh (.asking session)) => c.stepRefresh id session result
  | _ => (c, [])

def wake (c : Control) (id : TaskId) : Control × List Action :=
  match c.task? id with
  | some (.poll session stopped (.waiting failures)) => c.wakePoll id session stopped failures
  | _ => (c, [])

/-- A poll learns that its session is closed and ends. -/
def haltPoll (c : Control) (id : TaskId) : Control × List Action :=
  match c.task? id with
  | some (.poll session true (.waiting _)) =>
    (c.setTask id (.poll session true (.done (.ok ()))), [])
  | _ => (c, [])

def join (c : Control) (id : TaskId) : Control × List Action :=
  match c.task? id with
  | some (.load (.listing session path (.done clips) (.done takes))) =>
    c.joinLoad id session path clips takes
  | _ => (c, [])

def start (c : Control) (t : Task) : Control × List Action :=
  let (c, id) := c.spawn t
  (c, [.begin id])

def step (c : Control) : Input → Control × List Action
  | .openPath path => c.openPath path
  | .load => c.start (.load .created)
  | .submit => c.start (.submit .created)
  | .startPolling => (c.startPolling.1, c.startPolling.2.2)
  | .refresh => c.start (.refresh .created)
  | .close => c.close
  | .edit e => (c.setSession (c.session.edit e).1, [])
  | .begin id => c.beginTask id
  | .beginLeg id leg => c.beginLeg id leg
  | .response (.task id) result => c.receive id result
  | .response (.leg id leg) result => c.receiveLeg id result leg
  | .joined id => c.join id
  | .elapsed id => c.wake id
  | .halted id => c.haltPoll id

/-- A session with its tasks after inputs in any order, and all that was asked of the outside. -/
def run (c : Control) : List Input → Control × List Action
  | [] => (c, [])
  | i :: rest =>
    let (c, actions) := c.step i
    let (c, later) := run c rest
    (c, actions ++ later)

end Control

end CardImport
