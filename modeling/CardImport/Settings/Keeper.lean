import CardImport.Settings.File

/-!
# Keeping settings

Settings are read from their file, changed one after the other, and written to the file when they
are saved. A change that is refused changes nothing.
-/

namespace CardImport.Settings

/-- The settings in use, and the content of their file. -/
structure Keeper where
  settings : Settings
  file : Option ByteArray

inductive Change where
  | set (key : String) (value : Json)
  | reset
  | save
  | reload

namespace Keeper

variable [Json.Nesting]

def ofFile (path : String) (file : Option ByteArray) : Except Failure Keeper := do
  return ⟨← (load path file).outcome.1, file⟩

def step (path : String) (k : Keeper) : Change → Except Failure Keeper
  | .set key value => do return { k with settings := ← k.settings.set key value }
  | .reset => .ok { k with settings := {} }
  | .save => .ok { k with file := some k.settings.fileText.toUTF8 }
  | .reload => ofFile path k.file

/-- The settings and the file after changes, those that are refused among them. -/
def run (path : String) (k : Keeper) : List Change → Keeper
  | [] => k
  | c :: rest =>
    match k.step path c with
    | .ok k => run path k rest
    | .error _ => run path k rest

end Keeper

end CardImport.Settings
