import CardImport.Settings.Basic
import CardImport.Json.File
import CardImport.Json.Printer
import CardImport.Journal

/-!
# The settings file

A file that is not there, or that describes no valid settings, gives the first settings; the
latter is noted.
-/

namespace CardImport.Settings

def filePath (home : String) : String := home ++ "/.config/clipingest/config.json"

variable [Json.Nesting]

def ofFile (bytes : ByteArray) : Except Failure Settings := do ofJson (← Json.ofFile bytes)

/-- The settings of a file. Only data that is no object where one is needed, or a number that is
too large, is a failure. -/
def load (path : String) : Option ByteArray → Noted Settings
  | none => return {}
  | some bytes =>
    match ofFile bytes with
    | .ok s => return s
    | .error e =>
      if e.kind.isBadData then do
        Noted.write .warning .settings ("Could not load config from " ++ path ++ ": " ++ e.message)
        return {}
      else throw e

def fileText (s : Settings) : String := s.toJson.write .file

end CardImport.Settings
