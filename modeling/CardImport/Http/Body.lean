import CardImport.Exchange
import CardImport.Json.Parser
import CardImport.Text.Encoding

/-!
# Bodies in bytes

A request is not sent with a body that has no text in JSON. The body of an answer may be in any
encoding that its first bytes tell.
-/

namespace CardImport

/-- What is wrong with the body of a request: a number in it that JSON has no text for. -/
def Http.refusal? (r : Request) : Option String :=
  if r.body.isFinite then none else some "Out of range float values are not JSON compliant"

variable [Json.Nesting]

/-- The value that a JSON text in some encoding holds. -/
def Json.ofBytes (bytes : ByteArray) : Except BodyError Json :=
  match Text.decode? bytes with
  | none => .error .notJson
  | some cs => match parse cs with
    | .ok x => .ok x
    | .error (.tooDeep c) => .error (.tooDeep c)
    | .error _ => .error .notJson

def Body.ofBytes (bytes : ByteArray) : Body := ⟨bytes, Json.ofBytes bytes⟩

end CardImport
