import CardImport.Event
import CardImport.Memory
import CardImport.Rehearsal.Script
import CardImport.Session.Control

/-!
# Rehearsing a session

A rehearsal runs a session against a scripted server. One input is taken at a time, in the order in
which they became due. A task goes on at once when its reply is not held back. The clock stands
still until it is moved.
-/

namespace CardImport

/-- An input that becomes due after so many others were taken. -/
structure Due where
  hops : Nat
  input : Input

structure Rehearsal where
  endpoint : Endpoint
  control : Control := {}
  script : Script := []
  openGates : List String := []
  /-- Replies behind gates, in the order of their requests. -/
  held : List (String × Sender × Except Failure Response) := []
  ready : List Due := []
  /-- The polls that wait for a time, in the order of the times. -/
  timers : List (Binary64 × TaskId) := []
  clock : Binary64 := Binary64.zero false
  memory : Option Memory := none
  /-- What happened, the last first. -/
  happened : List Event := []

namespace Rehearsal

def push (r : Rehearsal) (hops : Nat) (input : Input) : Rehearsal :=
  { r with ready := r.ready ++ [⟨hops, input⟩] }

def record (r : Rehearsal) (e : Event) : Rehearsal := { r with happened := e :: r.happened }

def recordNotes (r : Rehearsal) (entries : List Entry) : Rehearsal :=
  entries.foldl (fun r e => r.record (.note e)) r

/-! ## Timers -/

/-- How many inputs are taken before a wait that does not last goes on: its own start, its end, and
the waking of its poll. -/
def shortWaitHops : Nat := 2

/-- How many inputs are taken before a wait that lasted goes on: the waking of its poll, which gives
up what it waited for, and the three of a short wait. -/
def longWaitHops : Nat := 4

/-- How many inputs are taken before a load learns that both listings are done. -/
def joinHops : Nat := 1

/-- Adds a timer behind those that are due before it or with it. -/
def insertTimer (time : Binary64) (id : TaskId) :
    List (Binary64 × TaskId) → List (Binary64 × TaskId)
  | [] => [(time, id)]
  | t :: rest =>
    if time.compare? t.1 == some .lt then (time, id) :: t :: rest
    else t :: insertTimer time id rest

def isStopped (r : Rehearsal) (id : TaskId) : Bool :=
  match r.control.task? id with
  | some (.poll _ stopped _) => stopped
  | _ => false

/-- Lets a poll wait. A delay of 0 or less is over at once. -/
def startWait (r : Rehearsal) (id : TaskId) (delay : Number) : Rehearsal :=
  let r := r.record (.wait delay)
  if delay.le (.whole 0) then r.push shortWaitHops (.elapsed id)
  else if r.isStopped id then r.push shortWaitHops (.halted id)
  else match delay.toBinary with
    | .ok x => { r with timers := insertTimer (r.clock.add x) id r.timers }
    | .error _ => r

/-- Tells a waiting poll that its session is closed. Its timer stays until the poll learns it. -/
def haltWait (r : Rehearsal) (id : TaskId) : Rehearsal :=
  if r.timers.any (·.2 == id) then r.push shortWaitHops (.halted id) else r

def dropTimer (r : Rehearsal) (id : TaskId) : Rehearsal :=
  { r with timers := r.timers.filter (·.2 != id) }

/-- Drops the timer of a poll that is halted by this input. -/
def dropHalted (r : Rehearsal) : Input → Rehearsal
  | .halted id => r.dropTimer id
  | _ => r

/-! ## Requests -/

/-- Sends a request; the response, unless a gate holds it back. -/
def send (r : Rehearsal) (sender : Sender) (q : Query) :
    Rehearsal × Option (Except Failure Response) :=
  let request := q.request r.endpoint
  let r := r.record (.request request)
  let (prepared, script) := r.script.take (Script.routeOf request)
  let (result, entries) := (Exchange.receive request prepared.reply).outcome
  let r := { r with script }.recordNotes entries
  match prepared.gate with
  | none => (r, some result)
  | some g =>
    if r.openGates.contains g then (r, some result)
    else ({ r with held := r.held ++ [(g, sender, result)] }, none)

/-- Opens a gate for good; the tasks behind it go on in the order of their requests. -/
def release (r : Rehearsal) (gate : String) : Rehearsal :=
  let freed := r.held.filter (·.1 == gate)
  freed.foldl (fun r h => r.push 0 (.response h.2.1 h.2.2))
    { r with openGates := gate :: r.openGates, held := r.held.filter (·.1 != gate) }

/-! ## Running -/

def merged (r : Rehearsal) : Event :=
  let s := r.control.session
  .merged s.state.name s.progress (s.items.map (·.state))

/-- Does what a step asked for. `fuel` bounds the number of actions. -/
def perform : Nat → Rehearsal → List Action → Rehearsal
  | 0, r, _ => r
  | _ + 1, r, [] => r
  | fuel + 1, r, a :: rest =>
    match a with
    | .note e => perform fuel (r.record (.note e)) rest
    | .begin id => perform fuel (r.push 0 (.begin id)) rest
    | .beginLeg id leg => perform fuel (r.push 0 (.beginLeg id leg)) rest
    | .join id => perform fuel (r.push joinHops (.joined id)) rest
    | .wait id delay => perform fuel (r.startWait id delay) rest
    | .halt id => perform fuel (r.haltWait id) rest
    | .remember path =>
      perform fuel { r with memory := r.memory.map (·.setLastPath path) } rest
    | .merged _ => perform fuel (r.record r.merged) rest
    | .ask sender q =>
      match r.send sender q with
      | (r, none) => perform fuel r rest
      | (r, some result) =>
        let (control, actions) := r.control.step (.response sender result)
        perform fuel { r with control } (actions ++ rest)

def take (fuel : Nat) (r : Rehearsal) (input : Input) : Rehearsal :=
  let (control, actions) := r.control.step input
  perform fuel { r with control } actions

/-- Takes all inputs that are due, and those that become due by them. -/
def settle : Nat → Rehearsal → Rehearsal
  | 0, r => r
  | fuel + 1, r =>
    match r.ready with
    | [] => r
    | d :: rest =>
      let r := { r with ready := rest }
      if d.hops = 0 then settle fuel ((r.dropHalted d.input).take fuel d.input)
      else settle fuel (r.push (d.hops - 1) d.input)

/-- Ends the first wait, at its time. -/
def fire (r : Rehearsal) : Rehearsal :=
  match r.timers with
  | [] => r
  | (time, id) :: rest => { r with timers := rest, clock := time }.push longWaitHops (.elapsed id)

/-- Ends the waits that are due up to a time, one after the other. -/
def advanceTo (time : Binary64) : Nat → Rehearsal → Rehearsal
  | 0, r => r
  | fuel + 1, r =>
    match r.timers with
    | [] => { r with clock := time }
    | (due, _) :: _ =>
      match due.compare? time with
      | some .lt | some .eq => advanceTo time fuel (settle fuel r.fire)
      | _ => { r with clock := time }

/-- Moves the clock on by some seconds. What was due before waits for the first timer. -/
def advance (fuel : Nat) (r : Rehearsal) (seconds : Number) : Rehearsal :=
  match seconds.toBinary with
  | .ok x => advanceTo (r.clock.add x) fuel r
  | .error _ => r

/-- Ends all waits, one after the other, until none is left. -/
def drain : Nat → Rehearsal → Rehearsal
  | 0, r => r
  | fuel + 1, r =>
    let r := settle fuel r
    if r.timers.isEmpty then r else drain fuel r.fire

end Rehearsal

end CardImport
