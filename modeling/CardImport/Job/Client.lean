import CardImport.Exchange
import CardImport.Job.Status

/-!
# The import job on the server

Only the server knows whether a job runs; its status is asked for, and a batch of items is
submitted to it.
-/

namespace CardImport.Job

def path : String := "/import"

def badStatus (status : Int) : Failure :=
  .transport ("importer HTTP status " ++ toString status) status

/-- A failure of decoding that is put down to the server. -/
def isMalformed (f : Failure) : Bool := f.kind.isBadData || f.kind = .attribute

def decodeStatus (r : Response) : Noted JobStatus :=
  tryCatch (JobStatus.decode (if r.data.truthy then r.data else .obj [])) fun f => do
    if isMalformed f then
      Noted.write .warning .jobs ("Malformed import status: " ++ f.shown)
      throw (.transport ("malformed import status: " ++ f.shown) r.status)
    else throw f

def status : Call JobStatus where
  method := "GET"
  path := path
  accept r := if r.isSuccess then decodeStatus r else throw (badStatus r.status)

/-! ## Submitting a batch -/

/-- The code by which the server accepts a batch. -/
def accepted : Int := 200

def rejections : List (Int × String) := [
  (400, "bad request"),
  (401, "imports are disabled"),
  (402, "an import is already in progress"),
  (403, "source could not be opened")]

/-- The meaning of a code that is equal to a known one. -/
def rejection? (code : Json) : Option String :=
  (rejections.find? fun p => (Json.int p.1).equals code).map (·.2)

def batchBody (source subdirectory : Json) (items : List Json) : Json :=
  .obj [("path", source), ("subdirectory", subdirectory), ("items", .arr items)]

/-- The answer to a batch must carry the accepting code. -/
def acceptBatch (r : Response) : Noted Unit := do
  if !r.isSuccess then throw (badStatus r.status)
  let fields := r.data.fields?.getD []
  let code := Fields.getD fields "code" (.int 0)
  if !code.equals (.int accepted) then
    let message := Fields.getD fields "errorMessage" (.str "")
    Noted.write .warning .jobs
      ("Import rejected with code " ++ code.text ++ ": " ++ message.text)
    throw (.application code message r.status)

/-- Whether a batch was accepted, from how its request ended. -/
def acceptance : Except Failure Response → Noted Unit
  | .ok r => acceptBatch r
  | .error f => throw f

def start (source : Json) (subdirectory : Json) (items : List Json) : Call Unit where
  method := "POST"
  path := path
  body := batchBody source subdirectory items
  before := [⟨.info, .jobs,
    "Starting import of " ++ toString items.length ++ " clips from " ++ source.text⟩]
  accept := acceptBatch

end CardImport.Job
