import CardImport.Item
import CardImport.Registry

/-!
# Listings and reconciliation

The clips under a source path are listed by the server. Clips that already have a take are shown
as imported and left unchecked, so importing the same card again takes only what is new.
-/

namespace CardImport

def listClips (path : String) : Call (List Clip) where
  method := "GET"
  path := "/source"
  params := .obj [("path", .str path)]
  accept r := do
    if !r.isSuccess then
      throw (.transport ("source HTTP status " ++ toString r.status) r.status)
    (← (r.data.elementsOrNone : Noted (List Json))).mapM fun c => (Clip.ofJson c : Noted Clip)

namespace Reconcile

def hasTake (takes : List Take) (name : Json) : Bool := takes.any fun t => t.clipName.alike name

def item (scene : Json) (takes : List Take) (position : Nat) (clip : Clip) : Item where
  clip := clip
  checked := !hasTake takes clip.name
  state := if hasTake takes clip.name then .imported else .ready
  scene := scene
  num := toString (position + 1)
  select := false

def itemsFrom (scene : Json) (takes : List Take) : Nat → List Clip → List Item
  | _, [] => []
  | position, c :: cs => item scene takes position c :: itemsFrom scene takes (position + 1) cs

/-- One item for each clip, in their order, numbered from 1. Names that are arrays or objects
cannot be compared. -/
def items (scene : Json) (clips : List Clip) (takes : List Take) : Except Failure (List Item) :=
  if (takes.all fun t => t.clipName.isKey) && clips.all fun c => c.name.isKey then
    .ok (itemsFrom scene takes 0 clips)
  else .error .wrongType

/-- The entry about a list that was loaded. -/
def loaded (path : String) (items : List Item) : Entry :=
  ⟨.info, .reconciling,
    "Loaded " ++ toString items.length ++ " clips from " ++ path ++ " (" ++
      toString (items.filter (·.state = .imported)).length ++ " already imported)"⟩

/-- The items of the two listings of a path. If both failed, the failure of the clips counts. -/
def combine (scene : Json) (path : String) (clips : Except Failure (List Clip))
    (takes : Except Failure (List Take)) : Noted (List Item) := do
  let clips ← clips
  let takes ← takes
  let result ← items scene clips takes
  modify (· ++ [loaded path result])
  return result

open Network in
def load {m : Type → Type} [Monad m] [Network m] (e : Endpoint) (scene : Json) (path : String) :
    ExceptT Failure m (List Item) := do
  let clips ← attempt (perform e (listClips path))
  let takes ← attempt (perform e Registry.list)
  settle (combine scene path clips takes)

end Reconcile

end CardImport
