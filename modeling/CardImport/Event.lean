import CardImport.Exchange
import CardImport.Item
import CardImport.Table

/-!
# Events

What can be observed of a session or a command while it runs, in the order in which it happens.
-/

namespace CardImport

inductive Event where
  | note (entry : Entry)
  | request (request : Request)
  /-- A poll starts to wait for so many seconds. -/
  | wait (delay : Number)
  /-- A status was merged; the state, the progress and the states of the items after it. -/
  | merged (state : String) (progress : Number) (items : List ItemState)
  | print (text : String)
  /-- An empty line. -/
  | blankLine
  | table (table : Table)
  | progressTask (description : String) (total : Nat)
  | progress (completed : Int) (description : Json)

/-- The texts in an event that set styles in square brackets, in the order in which the terminal
reads them. What is to be shown of the progress is not read yet. -/
def Event.markup : Event → List String
  | print text => [text]
  | table t => t.markup
  | _ => []

end CardImport
