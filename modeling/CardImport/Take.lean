import CardImport.Json.Convert
import CardImport.Text.Percent

/-!
# Takes

A take records that a clip was imported under a scene and a number. Scene and number together are
its id; both are kept as the server words them, and compared exactly.
-/

namespace CardImport

structure TakeId where
  scene : Json
  num : Json

namespace TakeId

def ofText (scene num : String) : TakeId := ⟨.str scene, .str num⟩

def toJson (id : TakeId) : Json := .obj [("scene", id.scene), ("num", id.num)]

def ofJson (data : Json) : Except Failure TakeId := do
  return ⟨← data.require "scene", ← data.require "num"⟩

def text (id : TakeId) : String := id.scene.text ++ "/" ++ id.num.text

def same (a b : TakeId) : Bool := a.scene.alike b.scene && a.num.alike b.num

/-- A part of a path; only a text can be one. -/
def segment : Json → Except Failure String
  | .str s => .ok (String.ofList (Text.percentEncode (Text.utf8Bytes s)))
  | _ => .error .wrongType

def collectionPath : String := "/take/"

def path (id : TakeId) : Except Failure String := do
  return collectionPath ++ (← segment id.scene) ++ "/" ++ (← segment id.num)

end TakeId

structure Take where
  id : TakeId
  clipName : Json := .str ""
  select : Bool := false

namespace Take

def toJson (t : Take) : Json :=
  .obj [("id", t.id.toJson), ("clipName", t.clipName), ("select", .bool t.select)]

def ofJson (data : Json) : Except Failure Take := do
  let id ← TakeId.ofJson (← data.require "id")
  let fields := data.fields?.getD []
  return {
    id
    clipName := Fields.getD fields "clipName" (.str "")
    select := (Fields.getD fields "select" (.bool false)).truthy }

end Take

/-! ## Scenes -/

/-- Takes in a row that share a scene. -/
structure SceneGroup where
  scene : Json
  takes : List Take

/-- Puts a take in front of groups: into the first one if it has the same scene. -/
def SceneGroup.cons (t : Take) : List SceneGroup → List SceneGroup
  | [] => [⟨t.id.scene, [t]⟩]
  | g :: gs =>
    if t.id.scene.equals g.scene then ⟨t.id.scene, t :: g.takes⟩ :: gs
    else ⟨t.id.scene, [t]⟩ :: g :: gs

/-- Takes grouped by scene, in their order. A scene that comes back later starts a new group. -/
def groupByScene (takes : List Take) : List SceneGroup :=
  takes.foldr SceneGroup.cons []

end CardImport
