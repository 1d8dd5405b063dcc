import CardImport.Json.Text
import CardImport.Text.Percent

/-!
# Addresses

Where a request goes: a host, a port, and what is asked for there. Parameters follow the path,
percent-encoded.
-/

namespace CardImport.Http

structure Address where
  host : String
  port : Nat
  /-- Path and query. -/
  target : String

namespace Address

def scheme : List Char := "http://".toList

/-- The port where none is given. -/
def defaultPort : Nat := 80

def isHostEnd (c : Char) : Bool := c == '/' || c == '?' || c == '#'

/-- Splits off the port behind a host; none if it is no number. A host in square brackets may
hold colons. -/
def splitPort? (cs : List Char) : Option (List Char × Nat) :=
  let (host, rest) := match cs with
    | '[' :: cs => (cs.takeWhile (· != ']'), (cs.dropWhile (· != ']')).tail)
    | cs => (cs.takeWhile (· != ':'), cs.dropWhile (· != ':'))
  match rest with
  | [] => some (host, defaultPort)
  | ':' :: digits => (String.ofList digits).toNat?.map (host, ·)
  | _ => none

/-- A path starts with a slash, and a fragment is not sent. -/
def targetOf (cs : List Char) : List Char :=
  match cs.takeWhile (· != '#') with
  | '/' :: rest => '/' :: rest
  | rest => '/' :: rest

def ofUrl? (url : String) : Option Address := do
  let cs := url.toList
  if !scheme.isPrefixOf cs then none
  else
    let rest := cs.drop scheme.length
    let (host, port) ← splitPort? (rest.takeWhile fun c => !isHostEnd c)
    let target := targetOf (rest.dropWhile fun c => !isHostEnd c)
    return ⟨String.ofList host, port, String.ofList target⟩

/-! ## Parameters -/

def encoded (s : String) : List Char := Text.percentEncode (Text.utf8Bytes s)

def parameter (p : String × Json) : List Char := encoded p.1 ++ '=' :: encoded p.2.text

def withParams (a : Address) : Json → Address
  | .obj (p :: ps) =>
    let mark := if a.target.toList.contains '?' then '&' else '?'
    let query := ['&'].intercalate ((p :: ps).map parameter)
    { a with target := a.target ++ String.ofList (mark :: query) }
  | _ => a

end Address

end CardImport.Http
