import CardImport.Exchange

/-!
# Scripted servers

A script says what a server answers: for each method and path a list of replies, which are given
one after the other, the last one for ever. A reply may be held back by a gate.
-/

namespace CardImport

structure Prepared where
  reply : Reply
  /-- The gate that holds the reply back. -/
  gate : Option String := none

abbrev Script := List (String × List Prepared)

namespace Script

def pathOf (url : String) : String :=
  let rec afterScheme : List Char → List Char
    | ':' :: '/' :: '/' :: rest => rest
    | _ :: rest => afterScheme rest
    | [] => []
  let isEnd (c : Char) : Bool := c == '?' || c == '#'
  let isHostEnd (c : Char) : Bool := c == '/' || isEnd c
  String.ofList (((afterScheme url.toList).dropWhile fun c => !isHostEnd c).takeWhile
    fun c => !isEnd c)

def routeOf (r : Request) : String := r.method ++ " " ++ pathOf r.url

/-- What is answered where the script says nothing. -/
def unknown : Prepared := { reply := .answer 404 .empty }

def take (route : String) : Script → Prepared × Script
  | [] => (unknown, [])
  | (name, replies) :: rest =>
    if name = route then
      match replies with
      | [] => (unknown, (name, []) :: rest)
      | [p] => (p, (name, [p]) :: rest)
      | p :: later => (p, (name, later) :: rest)
    else
      let (p, rest) := take route rest
      (p, (name, replies) :: rest)

def setRoute (route : String) (replies : List Prepared) : Script → Script
  | [] => [(route, replies)]
  | (name, old) :: rest =>
    if name = route then (name, replies) :: rest else (name, old) :: setRoute route replies rest

end Script

end CardImport
