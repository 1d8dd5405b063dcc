import CardImport.Json.Parser
import CardImport.Failure

/-!
# Values in files

A file holds a JSON text in UTF-8.
-/

namespace CardImport.Json

def parseFailure : JsonError → Failure
  | .malformed => .notJson
  | .tooManyDigits n => .number (.tooManyDigits n)
  | .tooDeep c => .tooDeep c

variable [Nesting]

def ofFile (bytes : ByteArray) : Except Failure Json :=
  match String.fromUTF8? bytes with
  | none => .error .notUtf8
  | some s => (parse s.toList).mapError parseFailure

end CardImport.Json
