import CardImport.Json.Basic
import CardImport.Failure

/-!
# Values as numbers

Texts are read as numbers, truth values count as 1 and 0, and a binary number loses its fraction
where a whole one is asked for. Null, arrays and objects are no numbers.
-/

namespace CardImport

def numberResult {α : Type} : Except NumberError α → Except Failure α
  | .ok x => .ok x
  | .error e => .error (.number e)

namespace Json

def toWhole : Json → Except Failure Int
  | bool b => .ok (Number.ofFlag b)
  | int n => .ok n
  | float x => numberResult (Number.wholeOfBinary x)
  | str s => numberResult (Number.readWhole s.toList)
  | _ => .error .wrongType

def toBinary : Json → Except Failure Binary64
  | bool b => .ok (Binary64.ofInt (Number.ofFlag b))
  | int n => numberResult (Number.toBinary (.whole n))
  | float x => .ok x
  | str s => numberResult (Number.readBinary s.toList)
  | _ => .error .wrongType

/-- A value that is used as a number without conversion. -/
def toNumber (x : Json) : Except Failure Number :=
  match x.number? with
  | some n => .ok n
  | none => .error .wrongType

def fields? : Json → Option Fields
  | obj fields => some fields
  | _ => none

/-- A field that an object must have. -/
def require (name : String) : Json → Except Failure Json
  | obj fields => match Fields.get? fields name with
    | some x => .ok x
    | none => .error (.missing name)
  | _ => .error .wrongType

/-- The characters of a text, the elements of an array or the names of an object. -/
def elements : Json → Except Failure (List Json)
  | str s => .ok (s.toList.map fun c => .str (String.ofList [c]))
  | arr xs => .ok xs
  | obj fields => .ok (fields.map fun f => .str f.1)
  | _ => .error .wrongType

/-- The elements of a value, none if it counts as no. -/
def elementsOrNone (x : Json) : Except Failure (List Json) :=
  if x.truthy then x.elements else .ok []

end Json

namespace Fields

def getD (fields : Fields) (name : String) (default : Json) : Json :=
  (fields.get? name).getD default

end Fields

end CardImport
