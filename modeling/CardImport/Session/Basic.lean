import CardImport.Job.Progress
import CardImport.TakeNumber

/-!
# Sessions

What an import session holds, and how it is read and edited. A session is for one source path at a
time; its number goes up whenever it is closed, so that what was started before can be told from
what was started after.
-/

namespace CardImport

structure Session where
  /-- The scene of newly listed clips. -/
  scene : Json := .str defaultScene
  /-- Seconds between two looks at the job. -/
  pollInterval : Number := .real (Binary64.ofRatio false 1 2)
  /-- How many failed looks in a row are tolerated. -/
  maxRetries : Number := .whole 5
  /-- The longest delay before a retry, in seconds. -/
  maxBackoff : Number := .real (Binary64.ofNat 8)
  path : String := ""
  /-- Where on the destination the next import goes. -/
  subdirectory : Json := .str ""
  enabled : Bool := true
  progress : Number := Progress.inactive
  eta : Option Timestamp := none
  items : List Item := []
  index : NameIndex := []
  /-- Whether a listing is on its way. -/
  loading : Bool := false
  lastStatus : Option JobStatus := none
  number : Nat := 0

inductive SessionState where
  | loading | noData | ready | active
deriving DecidableEq, Repr

def SessionState.name : SessionState → String
  | .loading => "loading"
  | .noData => "noData"
  | .ready => "ready"
  | .active => "active"

namespace Session

/-- Loading wins over emptiness, and emptiness over the job. -/
def state (s : Session) : SessionState :=
  if s.loading then .loading
  else if s.items.isEmpty then .noData
  else if Progress.isActive s.progress then .active
  else .ready

def find? (s : Session) (name : Json) : Option Nat := s.index.position? name

/-- The position that a name of any type leads to. An array or object cannot be looked up. -/
def lookup (s : Session) (name : Json) : Except Failure (Option Nat) :=
  if name.isKey then .ok (s.find? name) else .error .wrongType

def install (s : Session) (items : List Item) : Session :=
  { s with items, index := .ofItems items }

def suggestedPath (s : Session) (last : Option String) : String :=
  if s.path != "" then s.path else last.getD ""

end Session

/-! ## Edits -/

inductive Edit where
  | checkAll
  | checkNone
  /-- Gives all later items the scene of the item at the position. -/
  | autofillScene (position : Int)
  /-- Numbers all later items consecutively from the item at the position. -/
  | autofillNum (position : Int)
  | setChecked (position : Nat) (checked : Bool)
  | setScene (position : Nat) (scene : Json)
  | setNum (position : Nat) (num : String)
  | setSelect (position : Nat) (select : Bool)

namespace Items

/-- The item at a position that may be out of range, and how many items come before the one after
it. -/
def at? (items : List Item) (position : Int) : Option (Item × Nat) :=
  if position < 0 then none
  else (items[position.toNat]?).map fun i => (i, position.toNat + 1)

def fillScene (items : List Item) (position : Int) : List Item :=
  match at? items position with
  | none => items
  | some (i, n) => items.take n ++ (items.drop n).map fun later => { later with scene := i.scene }

/-- Gives consecutive numbers, the first item `n`. A number that is too long stops it; the items
before keep theirs. -/
def numbered (n : Int) : List Item → List Item × Except NumberError Unit
  | [] => ([], .ok ())
  | i :: rest =>
    match Number.writeWhole n with
    | .error e => (i :: rest, .error e)
    | .ok num =>
      let (rest, result) := numbered (n + 1) rest
      ({ i with num } :: rest, result)

/-- Does nothing if the item at the position has no number to start from. -/
def fillNum (items : List Item) (position : Int) : List Item × Except NumberError Unit :=
  match at? items position with
  | none => (items, .ok ())
  | some (i, n) =>
    match TakeNumber.parse? i.num with
    | .error e => (items, .error e)
    | .ok none => (items, .ok ())
    | .ok (some first) =>
      let (later, result) := numbered (first + 1) (items.drop n)
      (items.take n ++ later, result)

def edit (items : List Item) : Edit → List Item × Except NumberError Unit
  | .checkAll => (items.map fun i => { i with checked := true }, .ok ())
  | .checkNone => (items.map fun i => { i with checked := false }, .ok ())
  | .autofillScene position => (fillScene items position, .ok ())
  | .autofillNum position => fillNum items position
  | .setChecked position checked => (items.modify position fun i => { i with checked }, .ok ())
  | .setScene position scene => (items.modify position fun i => { i with scene }, .ok ())
  | .setNum position num => (items.modify position fun i => { i with num }, .ok ())
  | .setSelect position select => (items.modify position fun i => { i with select }, .ok ())

end Items

def Session.edit (s : Session) (e : Edit) : Session × Except NumberError Unit :=
  let (items, result) := Items.edit s.items e
  ({ s with items }, result)

/-! ## Merging a status -/

namespace Session

/-- Sets the state of the item that a clip name leads to, if there is one. -/
def mark (s : Session) (name : Json) (state : ItemState) : Except Failure Session := do
  match ← s.lookup name with
  | none => return s
  | some position => return { s with items := s.items.modify position fun i => { i with state } }

def resultState (r : ClipResult) : ItemState := if r.succeeded then .imported else .error

/-- Takes over results in their order. The results before one that fails are kept. -/
def mergeResults (s : Session) : List ClipResult → Session × Except Failure Unit
  | [] => (s, .ok ())
  | r :: rest =>
    match s.mark r.clip.name (resultState r) with
    | .error e => (s, .error e)
    | .ok s => mergeResults s rest

/-- The first clip that is not done is the one being copied. -/
def mergePending (s : Session) : List Clip → Session × Except Failure Unit
  | [] => (s, .ok ())
  | c :: _ =>
    match s.mark c.name .active with
    | .error e => (s, .error e)
    | .ok s => (s, .ok ())

def mergeJob (s : Session) (status : JobStatus) (progress : Number) : Session :=
  { s with
    enabled := status.enabled
    progress
    eta := if status.active then status.eta else none
    lastStatus := some status }

/-- Merges a status into the session. When it fails, what was merged before stays. -/
def merge (s : Session) (status : JobStatus) : Session × Except Failure Unit :=
  match Progress.ofStatus status with
  | .error e => ({ s with enabled := status.enabled }, .error (.number e))
  | .ok progress =>
    match (s.mergeJob status progress).mergeResults status.results with
    | (s, .error e) => (s, .error e)
    | (s, .ok ()) => s.mergePending status.pending

def giveUp (s : Session) : Session := { s with progress := Progress.inactive, eta := none }

end Session

end CardImport
