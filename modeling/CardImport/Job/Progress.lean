import CardImport.Job.Status

/-!
# Progress

The progress of a job is the fraction of bytes copied while it runs, and -1 while none does.
-/

namespace CardImport.Progress

/-- The progress while no job runs. -/
def inactive : Number := .real (Binary64.ofInt (-1))

/-- The fraction copied by a running job, 0 as long as nothing is sized. -/
def fraction (active : Bool) (copied total : Number) : Except NumberError Number := do
  if !active then return inactive
  else if total.le (.whole 0) then return .real (Binary64.zero false)
  else return .real (← copied.div total)

def ofStatus (status : JobStatus) : Except NumberError Number :=
  fraction status.active (.whole status.bytesCopied) (.whole status.bytesTotal)

/-- Whether a progress says that a job runs. -/
def isActive (progress : Number) : Bool := Number.le (.whole 0) progress

/-- The progress in whole percent from 0 to 100; none while no job runs. -/
def percentage? (progress : Number) : Except NumberError (Option Int) := do
  if progress.lt (.whole 0) then return none
  else
    let percent ← (← progress.mul (.whole 100)).toWhole
    return some (max 0 (min 100 percent))

end CardImport.Progress
