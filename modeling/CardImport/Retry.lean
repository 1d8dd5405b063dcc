import CardImport.Failure

/-!
# Retrying

Which answers are worth a second try, and how long to wait before it.
-/

namespace CardImport.Retry

def isSuccess (status : Int) : Bool := 200 ≤ status && status < 300

inductive Category where
  /-- The request may succeed if it is repeated. -/
  | transient
  /-- The request itself is wrong. -/
  | client
  | unknown
deriving DecidableEq, Repr

def Category.name : Category → String
  | .transient => "transient"
  | .client => "client"
  | .unknown => "unknown"

/-- The statuses below 500 that are transient; 0 stands for no answer. -/
def transientStatuses : List Int := [0, 408, 429]

def category (status : Int) : Category :=
  if transientStatuses.contains status || (500 ≤ status && status < 600) then .transient
  else if 400 ≤ status && status < 500 then .client
  else .unknown

def isTransient (status : Int) : Bool := category status = .transient

/-- Whether a status request that failed in this way is repeated. -/
def isRetryable (f : Failure) : Bool :=
  match f.kind with
  | .application => false
  | .remote | .transport | .notFound => (f.status?.map isTransient).getD false
  | _ => false

/-- The delay before the retry that follows the `attempt`-th failure in a row: the base, doubled
for each earlier one, and never more than the cap. -/
def delay (attempt : Int) (base cap : Number) : Except NumberError Number := do
  if attempt < 1 then return base
  else
    let doubled ← base.mul (.whole (twoTo (attempt - 1).toNat))
    return if doubled.lt cap then doubled else cap

end CardImport.Retry
