import CardImport.Memory

/-!
# Keeping the memory

The memory is read from its file when a session begins. With each text that is set the whole file is
written; if that cannot be done it is noted, and the text is remembered until the memory is read
again.
-/

namespace CardImport.Memory

structure Keeper where
  memory : Memory
  file : Option ByteArray

inductive Change where
  /-- `written` if the file can be written. -/
  | set (name text : String) (written : Bool)
  | reload

namespace Keeper

variable [Json.Nesting]

def ofFile (path : String) (file : Option ByteArray) : Noted Keeper := do
  return ⟨← load path file, file⟩

def set (path : String) (k : Keeper) (name text : String) (written : Bool) : Noted Keeper := do
  let memory := k.memory.set name text
  if written then return ⟨memory, some memory.fileText.toUTF8⟩
  else
    modify (· ++ [unsaved path])
    return { k with memory }

def step (path : String) (k : Keeper) : Change → Noted Keeper
  | .set name text written => k.set path name text written
  | .reload => ofFile path k.file

/-- The memory and its file after changes. -/
def run (path : String) (k : Keeper) : List Change → Noted Keeper
  | [] => return k
  | c :: rest => do run path (← k.step path c) rest

end Keeper

end CardImport.Memory
