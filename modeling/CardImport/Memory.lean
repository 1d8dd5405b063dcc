import CardImport.Json.File
import CardImport.Json.Printer
import CardImport.Json.Text
import CardImport.Journal

/-!
# Memory between sessions

Texts under names that outlive a session, kept in a file. They are a convenience: a file of
another kind is ignored, and a text that cannot be written to the file is still remembered until
the program ends.
-/

namespace CardImport

structure Memory where
  texts : List (String × String) := []

namespace Memory

def filePath (home : String) : String := home ++ "/.cache/clipingest/session.json"

def get? (m : Memory) (name : String) : Option String := m.texts.lookup name

/-- Replaces the text under a name in its place, or adds it at the end. -/
def put (name text : String) : List (String × String) → List (String × String)
  | [] => [(name, text)]
  | (n, t) :: rest => if n = name then (n, text) :: rest else (n, t) :: put name text rest

def set (m : Memory) (name text : String) : Memory := ⟨put name text m.texts⟩

def toJson (m : Memory) : Json := .obj (m.texts.map fun p => (p.1, .str p.2))

def fileText (m : Memory) : String := m.toJson.write .file

variable [Json.Nesting]

/-- The memory in a file. A file that holds no JSON, or no object, is noted and ignored. -/
def load (path : String) : Option ByteArray → Noted Memory
  | none => return {}
  | some bytes =>
    match Json.ofFile bytes with
    | .ok (.obj fields) => return ⟨fields.map fun f => (f.1, f.2.text)⟩
    | .ok _ => do
      Noted.write .warning .memory ("Invalid session state in " ++ path ++ ", ignoring")
      return {}
    | .error .notJson => do
      Noted.write .warning .memory
        ("Could not load session state from " ++ path ++ ": " ++ Failure.message .notJson)
      return {}
    | .error e => throw e

/-- The entry about a file that cannot be written. -/
def unsaved (path : String) : Entry :=
  ⟨.warning, .memory, "Could not save session state to " ++ path ++ ": <os>"⟩

/-! ## The last path -/

/-- The name under which the last opened path is remembered. -/
def lastPathName : String := "lastImportPath"

def lastPath? (m : Memory) : Option String := m.get? lastPathName

def setLastPath (m : Memory) (path : String) : Memory := m.set lastPathName path

end Memory

end CardImport
