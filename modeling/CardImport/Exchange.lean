import CardImport.Journal
import CardImport.Retry

/-!
# Exchanges with the server

A call to the server is a request and a decoder for the answer. The network replies to a request
with an answer, or not at all; `Exchange.receive` makes a response or a failure of the reply.
-/

namespace CardImport

/-! ## Bodies -/

/-- Why there is no value in the body of an answer. -/
inductive BodyError where
  /-- The HTTP library finds no JSON in it. -/
  | notJson
  | tooDeep (innermost : Container)

/-- The body of an answer, as the HTTP library hands it over: the bytes, and what it reads in them.
It may go by the headers of the answer or by the bytes, so one does not follow from the other. -/
structure Body where
  content : ByteArray
  json : Except BodyError Json

namespace Body

def empty : Body := ⟨ByteArray.empty, .error .notJson⟩

/-- The value in a body; null if there is none. Only a value that is nested too deep is a
failure. -/
def data (b : Body) : Except Failure Json :=
  if b.content.isEmpty then .ok .null
  else match b.json with
    | .ok x => .ok x
    | .error .notJson => .ok .null
    | .error (.tooDeep c) => .error (.tooDeep c)

end Body

/-! ## Requests and replies -/

structure Request where
  method : String
  url : String
  /-- Null if there are none. -/
  params : Json := .null
  /-- Null if there is none. -/
  body : Json := .null
  timeout : Number

inductive Reply where
  | answer (status : Int) (body : Body)
  /-- No answer came. -/
  | unreachable (message : String)
  /-- The HTTP library does not send the request. -/
  | unsent (message : String)
  /-- Something else than the network failed. -/
  | broken (failure : Failure)

structure Response where
  status : Int
  data : Json

def Response.isSuccess (r : Response) : Bool := Retry.isSuccess r.status

/-! ## Libraries -/

/-- What the libraries of others do not take. -/
structure Libraries where
  /-- Why the HTTP library does not send a request. -/
  refusal? : Request → Option String := fun _ => none
  /-- What the terminal library finds wrong with the styles in a text. -/
  fault? : String → Option String := fun _ => none

namespace Libraries

def sends (l : Libraries) (r : Request) : Bool := (l.refusal? r).isNone

/-- What comes back for a request that the network would reply to like this. -/
def carry (l : Libraries) (r : Request) (reply : Reply) : Reply :=
  match l.refusal? r with
  | some message => .unsent message
  | none => reply

/-- Whether no request is sent with a number that JSON has no text for, as the HTTP library
documents. -/
def SendsFinite (l : Libraries) : Prop := ∀ r, l.sends r = true → r.body.isFinite = true

end Libraries

/-! ## The server's address -/

/-- The root address without slashes at its end, and the seconds a request may take. -/
structure Endpoint where
  root : List Char
  timeout : Number

namespace Endpoint

def isSlash (c : Char) : Bool := c == '/'

def dropLastSlashes (cs : List Char) : List Char := (cs.reverse.dropWhile isSlash).reverse

def ofUrl (url : String) (timeout : Number) : Endpoint := ⟨dropLastSlashes url.toList, timeout⟩

/-- The address of a path: root and path with one slash between them. -/
def url (e : Endpoint) (path : String) : String :=
  String.ofList (e.root ++ '/' :: path.toList.dropWhile isSlash)

end Endpoint

/-! ## Calls -/

/-- A request by path, what is noted before it is sent, and what its response means. -/
structure Call (α : Type) where
  method : String
  path : String
  params : Json := .null
  body : Json := .null
  before : List Entry := []
  accept : Response → Noted α

namespace Call

variable {α : Type}

def request (c : Call α) (e : Endpoint) : Request where
  method := c.method
  url := e.url c.path
  params := c.params
  body := c.body
  timeout := e.timeout

def finish (c : Call α) : Except Failure Response → Noted α
  | .ok r => c.accept r
  | .error f => throw f

end Call

namespace Exchange

/-- The response in a reply. A server that cannot be reached is noted. -/
def receive (r : Request) : Reply → Noted Response
  | .answer status body => return { status, data := ← body.data }
  | .unreachable message | .unsent message => do
    let text := r.method ++ " " ++ r.url ++ " failed: " ++ message
    Noted.write .warning .transport text
    throw (.transport text 0)
  | .broken failure => throw failure

end Exchange

/-! ## Calls one after the other -/

/-- A context that reaches the server and keeps a journal. -/
class Network (m : Type → Type) where
  exchange : Request → m Reply
  note : Entry → m Unit

namespace Network

variable {m : Type → Type} [Monad m] [Network m] {α : Type}

def noteAll : List Entry → m Unit
  | [] => pure ()
  | e :: es => do note e; noteAll es

/-- The outcome of a noted computation, after its entries went to the journal. -/
def settle (x : Noted α) : ExceptT Failure m α := do
  let (outcome, entries) := x.outcome
  noteAll (m := m) entries
  outcome

/-- Runs a computation and hands on how it ended. -/
def attempt (x : ExceptT Failure m α) : ExceptT Failure m (Except Failure α) :=
  ExceptT.lift x.run

def perform (e : Endpoint) (c : Call α) : ExceptT Failure m α := do
  noteAll (m := m) c.before
  let request := c.request e
  let reply ← exchange (m := m) request
  let response ← attempt (settle (Exchange.receive request reply))
  settle (c.finish response)

end Network

end CardImport
