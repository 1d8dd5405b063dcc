import CardImport.Clip
import CardImport.Take

/-!
# Items

An item is an entry of the import list, one for each clip of the source directory. The operator
sets what is imported and under which scene and number; the server alone decides the state.
-/

namespace CardImport

inductive ItemState where
  | ready | active | imported | error
deriving DecidableEq, Repr

def ItemState.name : ItemState → String
  | .ready => "ready"
  | .active => "active"
  | .imported => "imported"
  | .error => "error"

def defaultScene : String := "scratch"

structure Item where
  clip : Clip
  checked : Bool := true
  state : ItemState := .ready
  scene : Json := .str defaultScene
  num : String := ""
  select : Bool := false

namespace Item

def submission (i : Item) : Json :=
  .obj [("clip", i.clip.toJson), ("scene", i.scene), ("num", .str i.num),
    ("select", .bool i.select)]

end Item

/-! ## Lists of items -/

namespace Items

def anyChecked (items : List Item) : Bool := items.any (·.checked)

/-- Whether there are items and all are checked. -/
def allChecked (items : List Item) : Bool := !items.isEmpty && items.all (·.checked)

def checkedTotal (items : List Item) : Int :=
  (items.filter (·.checked)).foldr (fun i total => i.clip.totalSize + total) 0

/-- The items to import: the checked ones, selects first, each kind in the order of the list. -/
def submitted (items : List Item) : List Item :=
  items.filter (fun i => i.checked && i.select) ++ items.filter (fun i => i.checked && !i.select)

def batch (items : List Item) : List Json := (submitted items).map Item.submission

end Items

/-! ## Finding items by clip name -/

/-- The positions of items by clip name, each name once. -/
abbrev NameIndex := List (Json × Nat)

namespace NameIndex

def position? (name : Json) : NameIndex → Option Nat
  | [] => none
  | (n, position) :: rest => if n.alike name then some position else position? name rest

/-- The index of items from a position on: a name leads to the first item that has it. -/
def ofItemsFrom (index : NameIndex) (position : Nat) : List Item → NameIndex
  | [] => index
  | i :: rest =>
    let index := if (position? i.clip.name index).isSome then index
      else index ++ [(i.clip.name, position)]
    ofItemsFrom index (position + 1) rest

def ofItems (items : List Item) : NameIndex := ofItemsFrom [] 0 items

end NameIndex

end CardImport
