import CardImport.Item
import CardImport.Timestamp.Reader

/-!
# Job status

A snapshot of the import job on the server: whether it runs, how much it has copied, which clips
are done and which are not.
-/

namespace CardImport

structure ClipResult where
  clip : Clip
  /-- What the server says went wrong; null if nothing did. -/
  error : Json := .null
  start : Option Timestamp := none
  finish : Option Timestamp := none

structure JobStatus where
  enabled : Bool := true
  active : Bool := false
  bytesCopied : Int := 0
  bytesTotal : Int := 0
  start : Option Timestamp := none
  eta : Option Timestamp := none
  /-- In the order in which they ended. -/
  results : List ClipResult := []
  /-- The first of them is being copied. -/
  pending : List Clip := []

/-- What counts as no is null. -/
def Json.orNull (x : Json) : Json := if x.truthy then x else .null

namespace ClipResult

def succeeded (r : ClipResult) : Bool := !r.error.truthy

def decode (data : Json) : Noted ClipResult := do
  let clip ← Clip.ofJson (← data.require "clip")
  let fields := data.fields?.getD []
  let error := (Fields.getD fields "error" .null).orNull
  let start ← Timestamp.decode (Fields.getD fields "start" .null)
  let finish ← Timestamp.decode (Fields.getD fields "end" .null)
  return { clip, error, start, finish }

end ClipResult

namespace JobStatus

/-- A whole number, zero if the value counts as no. -/
def count (x : Json) : Except Failure Int := if x.truthy then x.toWhole else .ok 0

def decode (data : Json) : Noted JobStatus := do
  let fields ← match data.fields? with
    | some fields => pure fields
    | none => throw .noAttribute
  let enabled := (Fields.getD fields "enabled" (.bool true)).truthy
  let active := (Fields.getD fields "active" (.bool false)).truthy
  let bytesCopied ← count (Fields.getD fields "bytesCopied" .null)
  let bytesTotal ← count (Fields.getD fields "bytesTotal" .null)
  let start ← Timestamp.decode (Fields.getD fields "start" .null)
  let eta ← Timestamp.decode (Fields.getD fields "eta" .null)
  let results ← (← (Fields.getD fields "results" .null).elementsOrNone).mapM ClipResult.decode
  let pending ← (← (Fields.getD fields "pending" .null).elementsOrNone).mapM
    fun c => (Clip.ofJson c : Noted Clip)
  return { enabled, active, bytesCopied, bytesTotal, start, eta, results, pending }

end JobStatus

end CardImport
