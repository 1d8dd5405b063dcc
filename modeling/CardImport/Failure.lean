import CardImport.Settings.Error

/-!
# Failures

Why a request, a decoder, a store or a command fails. `Failure.kind` sorts them by what a caller
can tell apart, and `Failure.message` is their wording.
-/

namespace CardImport

inductive Failure where
  /-- A call to the server failed. -/
  | remote (message : String) (status : Int)
  /-- The server answered with a status that is no success, or not at all (status 0). -/
  | transport (message : String) (status : Int)
  /-- No take has the id. -/
  | notFound (message : String)
  /-- The server accepted the request and reports a failure in its answer. -/
  | application (code message : Json) (status : Int)
  /-- The session or a command does not go on. -/
  | refused (message : String)
  /-- A field that must be there is not. -/
  | missing (name : String)
  | setting (error : SettingError)
  | number (error : NumberError)
  /-- A value of another type than the operation takes. -/
  | wrongType
  /-- A value that does not have the fields or operations asked for. -/
  | noAttribute
  /-- Bytes that are not UTF-8. -/
  | notUtf8
  /-- A text that is not JSON. -/
  | notJson
  /-- The connection to the server broke with a bad value. -/
  | badLink (message : String)
  /-- The system failed. -/
  | system (message : String)
  /-- A JSON text with too many arrays and objects inside each other. -/
  | tooDeep (innermost : Container)
  /-- A value that no cell of a table can show. -/
  | notShowable (value : Json)
  /-- A text whose styles the terminal cannot read. -/
  | badMarkup (message : String)
  /-- The limit of steps was reached before the end. -/
  | unfinished

namespace Failure

inductive Kind where
  | remote | transport | notFound | application | refused
  | lookup | value | type | attribute | overflow | unicode | system | nesting | display
  | markup | unfinished
deriving DecidableEq, Repr

def kind : Failure → Kind
  | remote .. => .remote
  | transport .. => .transport
  | notFound _ => .notFound
  | application .. => .application
  | refused _ => .refused
  | missing _ => .lookup
  | setting e => if e.isLookup then .lookup else .value
  | number e => match e with
    | .wholeOfInfinity | .tooLargeForBinary | .quotientTooLarge => .overflow
    | _ => .value
  | wrongType => .type
  | noAttribute => .attribute
  | notUtf8 => .unicode
  | notJson => .value
  | badLink _ => .value
  | system _ => .system
  | tooDeep _ => .nesting
  | notShowable _ => .display
  | badMarkup _ => .markup
  | unfinished => .unfinished

/-- The failures of a call to the server. -/
def Kind.isRemote : Kind → Bool
  | .remote | .transport | .notFound | .application => true
  | _ => false

/-- The failures that are raised on purpose, and that a command reports as such. -/
def Kind.isReported (k : Kind) : Bool := k.isRemote || k = .refused

/-- The failures of looking up, converting or typing a value. -/
def Kind.isBadData : Kind → Bool
  | .lookup | .value | .type | .unicode => true
  | _ => false

def isRemote (f : Failure) : Bool := f.kind.isRemote

/-- Stands for a message whose detail is left out. -/
def hidden : String := "<python>"

def message : Failure → String
  | remote m _ => m
  | transport m _ => m
  | notFound m => m
  | application code message _ => "importer error code " ++ code.text ++ ": " ++ message.text
  | refused m => m
  | missing name => Text.quoted name
  | setting e => if e.isLookup then Text.quoted e.message else e.message
  | number e => e.message
  | wrongType => hidden
  | noAttribute => hidden
  | notUtf8 => "<utf8>"
  | notJson => "<json>"
  | badLink m => m
  | system m => m
  | tooDeep c =>
    "maximum recursion depth exceeded while decoding a JSON " ++ c.name ++ " from a unicode string"
  | notShowable x =>
    "unable to render " ++ x.typeName ++ "; a string or other renderable object is required"
  | badMarkup m => m
  | unfinished => "not finished"

/-- The status of the answer that a remote failure is about. -/
def status? : Failure → Option Int
  | remote _ status => some status
  | transport _ status => some status
  | notFound _ => some 404
  | application _ _ status => some status
  | _ => none

/-- The name of a failure about data, with its message quoted. -/
def shown (f : Failure) : String :=
  match f.kind with
  | .lookup => "KeyError(" ++ quotedCause ++ ")"
  | .value => "ValueError(" ++ quotedCause ++ ")"
  | .type => "TypeError"
  | .attribute => "AttributeError"
  | _ => f.message
where
  quotedCause : String :=
    match f with
    | missing name => Text.quoted name
    | setting e => Text.quoted e.message
    | f => Text.quoted f.message

end Failure

end CardImport
