import CardImport.Event
import CardImport.Json.Text

/-!
# Events on a terminal

The lines that show an event. Styles in square brackets are left out, and the columns of a table
are as wide as their widest cell.
-/

namespace CardImport.Terminal

/-! ## Styles -/

def styles : List String := ["bold", "dim", "red", "green", "yellow", "blue", "cyan"]

/-- The marks around a styled text. -/
def marks : List (List Char) :=
  styles.flatMap fun s => [("[" ++ s ++ "]").toList, ("[/" ++ s ++ "]").toList]

/-- A text without the marks of styles; `skip` counts the characters left of a mark. -/
def unstyledChars : Nat → List Char → List Char
  | _, [] => []
  | skip + 1, _ :: cs => unstyledChars skip cs
  | 0, c :: cs =>
    match marks.find? (·.isPrefixOf (c :: cs)) with
    | some mark => unstyledChars (mark.length - 1) cs
    | none => c :: unstyledChars 0 cs

def unstyled (text : String) : String := String.ofList (unstyledChars 0 text.toList)

/-! ## Tables -/

def padded (width : Nat) (text : String) : String :=
  text ++ String.ofList (List.replicate (width - text.length) ' ')

def widths (rows : List (List String)) : List Nat :=
  rows.foldl (fun ws row => (row.zipIdx.map fun (text, i) => max text.length (ws.getD i 0)) ++
    ws.drop row.length) []

def rowLine (ws : List Nat) (row : List String) : String :=
  "  ".intercalate (List.zipWith padded ws row)

def tableLines (t : Table) : List String :=
  let rows := (t.columns :: t.rows).map fun row => row.map unstyled
  t.title :: rows.map (rowLine (widths rows))

/-! ## Events -/

/-- What is copied, before the percentage; nothing if it has no name. -/
def described : Json → String
  | .null => ""
  | description => unstyled description.text ++ " "

/-- The lines that show an event; what is for the journal has none. -/
def linesOf : Event → List String
  | .print text => [unstyled text]
  | .blankLine => [""]
  | .table t => tableLines t
  | .progress completed description => [described description ++ toString completed ++ "%"]
  | _ => []

end CardImport.Terminal
