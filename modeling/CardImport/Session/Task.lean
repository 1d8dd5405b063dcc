import CardImport.Job.Client
import CardImport.Listing
import CardImport.Session.Basic

/-!
# Tasks of a session

A task is a piece of work that gives way while it waits for the server or for time to pass. Its
stage is what it goes on with. Tasks are told apart by the order in which they were created.
-/

namespace CardImport

abbrev TaskId := Nat

inductive Leg where
  | clips | takes
deriving DecidableEq, Repr

inductive LegStage (α : Type) where
  | created
  | asked
  | done (result : Except Failure α)

/-- Loading a path: both listings, then the status of the job. `session` is the number of the
session in which the load took its first step. -/
inductive LoadStage where
  | created
  | listing (session : Nat) (path : String)
      (clips : LegStage (List Clip)) (takes : LegStage (List Take))
  | asking (session : Nat)
  | done (result : Except Failure Unit)

/-- Submitting a batch; its result is the poll that follows the job. -/
inductive SubmitStage where
  | created
  | asked
  | done (result : Except Failure TaskId)

/-- Looking at the job until it is idle. `failures` counts the failed looks in a row. -/
inductive PollStage where
  | created
  | waiting (failures : Nat)
  | asking (failures : Nat)
  | done (result : Except Failure Unit)

inductive RefreshStage where
  | created
  | asking (session : Nat)
  | done (result : Except Failure JobStatus)

inductive Task where
  | load (stage : LoadStage)
  | submit (stage : SubmitStage)
  /-- `session` is the number of the session that the poll belongs to, and `stopped` tells whether
  that session was closed since. -/
  | poll (session : Nat) (stopped : Bool) (stage : PollStage)
  | refresh (stage : RefreshStage)

def Task.isDone : Task → Bool
  | .load (.done _) => true
  | .submit (.done _) => true
  | .poll _ _ (.done _) => true
  | .refresh (.done _) => true
  | _ => false

inductive Query where
  | clips (path : String)
  | takes
  | status
  | submit (path : String) (subdirectory : Json) (batch : List Json)

def Query.request (e : Endpoint) : Query → Request
  | .clips path => (listClips path).request e
  | .takes => Registry.list.request e
  | .status => Job.status.request e
  | .submit path subdirectory batch => (Job.start (.str path) subdirectory batch).request e

inductive Sender where
  | task (id : TaskId)
  | leg (id : TaskId) (leg : Leg)
deriving DecidableEq, Repr

/-- What a step asks of the outside. -/
inductive Action where
  | note (entry : Entry)
  | ask (sender : Sender) (query : Query)
  /-- A new task is to take its first step. -/
  | begin (id : TaskId)
  | beginLeg (id : TaskId) (leg : Leg)
  /-- Both listings of a load are done. -/
  | join (id : TaskId)
  /-- A poll is to go on after a delay in seconds. -/
  | wait (id : TaskId) (delay : Number)
  /-- The wait of a poll is over, since its session is closed. -/
  | halt (id : TaskId)
  | remember (path : String)
  /-- A status was merged. -/
  | merged (status : JobStatus)

/-- What happens to a session: calls of the operator, and the ends of what tasks wait for. -/
inductive Input where
  | openPath (path : String)
  | load
  | submit
  | startPolling
  | refresh
  | close
  | edit (edit : Edit)
  /-- A task takes its first step. -/
  | begin (id : TaskId)
  | beginLeg (id : TaskId) (leg : Leg)
  | response (sender : Sender) (result : Except Failure Response)
  | joined (id : TaskId)
  /-- The delay of a poll is over. -/
  | elapsed (id : TaskId)
  /-- A poll learns that its session is closed. -/
  | halted (id : TaskId)

end CardImport
