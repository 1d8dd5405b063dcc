import CardImport.Http.Address
import CardImport.Http.Body
import CardImport.Json.Printer

/-!
# Messages

A request as it is sent over a connection of its own, and the reply as it comes back: a status, a
few headers, and a body that ends with the connection, after a length that is given, or with the
last of its chunks.
-/

namespace CardImport.Http

/-! ## Requests -/

def lineEnd : String := "\r\n"

def bodyOf : Json → ByteArray
  | .null => ByteArray.empty
  | body => (body.write .line).toUTF8

def headersOf (r : Request) (a : Address) : List (String × String) :=
  [("Host", a.host ++ ":" ++ toString a.port),
    ("Accept", "application/json"),
    ("Connection", "close")] ++
  match r.body with
  | .null => []
  | body => [("Content-Type", "application/json"),
      ("Content-Length", toString (bodyOf body).size)]

def requestBytes (r : Request) (a : Address) : ByteArray :=
  let headers := (headersOf r a).map fun h => h.1 ++ ": " ++ h.2 ++ lineEnd
  let first := r.method ++ " " ++ a.target ++ " HTTP/1.1" ++ lineEnd
  let head := first ++ String.join headers ++ lineEnd
  head.toUTF8 ++ bodyOf r.body

/-! ## Replies -/

def splitHead? : List UInt8 → Option (List UInt8 × List UInt8)
  | 13 :: 10 :: 13 :: 10 :: rest => some ([], rest)
  | b :: rest => (splitHead? rest).map fun (head, body) => (b :: head, body)
  | [] => none

def splitLine? : List UInt8 → Option (List UInt8 × List UInt8)
  | 13 :: 10 :: rest => some ([], rest)
  | b :: rest => (splitLine? rest).map fun (line, later) => (b :: line, later)
  | [] => none

def charsOf (bytes : List UInt8) : List Char := bytes.map fun b => Char.ofNat b.toNat

def status? (line : String) : Option Nat :=
  match line.splitOn " " with
  | _ :: status :: _ => status.toNat?
  | _ => none

/-- Name and value of a header; names are told apart in lower case. -/
def headerOf (line : String) : String × String :=
  let cs := line.toList
  (String.ofList ((cs.takeWhile (· != ':')).map Char.toLower),
    String.ofList (Text.strip (cs.dropWhile (· != ':')).tail))

/-- The size of a chunk, which may be followed by extensions. -/
def chunkSize? (line : List Char) : Option Nat :=
  let digits := line.takeWhile fun c => (Text.hexDigitValue? c).isSome
  if digits.isEmpty then none
  else some (digits.foldl (fun n c => n * 16 + (Text.hexDigitValue? c).getD 0) 0)

/-- Joins the chunks of a body; the empty chunk is the last one. `fuel` bounds their number. -/
def joinChunks? : Nat → List UInt8 → Option (List UInt8)
  | 0, _ => none
  | fuel + 1, bytes => do
    let (line, rest) ← splitLine? bytes
    let size ← chunkSize? (charsOf line)
    if size = 0 then return []
    else if rest.length < size then none
    else return rest.take size ++ (← joinChunks? fuel (rest.drop (size + 2)))

def body? (headers : List (String × String)) (bytes : List UInt8) : Option (List UInt8) :=
  match headers.lookup "transfer-encoding", headers.lookup "content-length" with
  | some encoding, _ => if encoding = "chunked" then joinChunks? (bytes.length + 1) bytes else none
  | none, some length => do
    let length ← length.toNat?
    if bytes.length < length then none else return bytes.take length
  | none, none => some bytes

variable [Json.Nesting]

/-- The answer in the bytes that came back over a connection; none if they are no whole reply. -/
def answer? (bytes : ByteArray) : Option Reply := do
  let (head, rest) ← splitHead? bytes.toList
  match (String.ofList (charsOf head)).splitOn lineEnd with
  | first :: lines =>
    let body ← body? (lines.map headerOf) rest
    return .answer (← status? first) (.ofBytes ⟨body.toArray⟩)
  | [] => none

end CardImport.Http
