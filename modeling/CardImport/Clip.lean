import CardImport.Json.Convert

/-!
# Clips

A clip of a source directory: its name, the files it is made of and their size together. Name and
files are kept as the server words them.
-/

namespace CardImport

structure Clip where
  name : Json
  paths : List Json := []
  totalSize : Int := 0

namespace Clip

def toJson (c : Clip) : Json :=
  .obj [("name", c.name), ("paths", .arr c.paths), ("totalSize", .int c.totalSize)]

/-- A clip must have a name; no files and no size are the same as none given. -/
def ofJson (data : Json) : Except Failure Clip := do
  let name ← data.require "name"
  let fields := data.fields?.getD []
  let paths ← (Fields.getD fields "paths" .null).elementsOrNone
  let totalSize ← (Fields.getD fields "totalSize" (.int 0)).toWhole
  return { name, paths, totalSize }

end Clip

end CardImport
