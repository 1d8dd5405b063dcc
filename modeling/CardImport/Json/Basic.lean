import CardImport.Number.Basic

/-!
# JSON values

The values of server bodies, of the settings file and of the session file. Whole and binary
numbers are told apart, a binary number may be a NaN or infinite, and an object keeps its fields in
order, each name once.
-/

namespace CardImport

inductive Json where
  | null
  | bool (b : Bool)
  | int (n : Int)
  | float (x : Binary64)
  | str (s : String)
  | arr (elements : List Json)
  | obj (fields : List (String × Json))

instance : Inhabited Json := ⟨.null⟩

inductive Container where
  | array | object
deriving DecidableEq, Repr

def Container.name : Container → String
  | .array => "array"
  | .object => "object"

/-! ## Fields of an object -/

abbrev Fields := List (String × Json)

namespace Fields

def get? (fields : Fields) (name : String) : Option Json := fields.lookup name

/-- Gives the field a value: in its place if it is there, else at the end. -/
def set (name : String) (value : Json) : Fields → Fields
  | [] => [(name, value)]
  | (n, v) :: rest => if n = name then (n, value) :: rest else (n, v) :: set name value rest

/-- The fields of an object that was written with these; the last value of a name counts. -/
def ofWritten (written : List (String × Json)) : Fields :=
  written.foldl (fun fields p => fields.set p.1 p.2) []

theorem get?_set_self (fields : Fields) (name : String) (value : Json) :
    get? (set name value fields) name = some value := by
  induction fields with
  | nil => simp [set, get?]
  | cons p rest ih =>
    obtain ⟨n, v⟩ := p
    by_cases h : n = name
    · subst h; simp [set, get?]
    · have differs : (name == n) = false := by simpa using fun e => h e.symm
      simpa [set, h, get?, List.lookup_cons, differs] using ih

theorem get?_set_of_ne (fields : Fields) {name other : String} (value : Json)
    (h : other ≠ name) : get? (set name value fields) other = get? fields other := by
  induction fields with
  | nil =>
    have differs : (other == name) = false := by simpa using h
    simp [set, get?, List.lookup_cons, differs]
  | cons p rest ih =>
    obtain ⟨n, v⟩ := p
    by_cases hn : n = name
    · subst hn
      have differs : (other == n) = false := by simpa using h
      simp [set, get?, List.lookup_cons, differs]
    · by_cases ho : other = n
      · subst ho; simp [set, hn, get?]
      · have differs : (other == n) = false := by simpa using ho
        simpa [set, hn, get?, List.lookup_cons, differs] using ih

end Fields

namespace Json

/-- Null, false, zero and all that is empty count as no. -/
def truthy : Json → Bool
  | null => false
  | bool b => b
  | int n => n != 0
  | float x => x.compareInt? 0 != some .eq
  | str s => s != ""
  | arr xs => !xs.isEmpty
  | obj fields => !fields.isEmpty

def number? : Json → Option Number
  | bool b => some (.flag b)
  | int n => some (.whole n)
  | float x => some (.real x)
  | _ => none

def ofNumber : Number → Json
  | .flag b => bool b
  | .whole n => int n
  | .real x => float x

/-! ## Finite values -/

mutual

/-- Whether no number in a value is a NaN or infinite. -/
def isFinite : Json → Bool
  | float x => x.isFinite
  | arr xs => areFinite xs
  | obj fs => haveFinite fs
  | _ => true
termination_by structural x => x

def areFinite : List Json → Bool
  | [] => true
  | x :: xs => isFinite x && areFinite xs
termination_by structural xs => xs

def haveFinite : List (String × Json) → Bool
  | [] => true
  | f :: fs => hasFinite f && haveFinite fs
termination_by structural fs => fs

def hasFinite : String × Json → Bool
  | (_, x) => isFinite x
termination_by structural f => f

end

/-! ## Equality

Numbers are equal by value, truth values count as numbers, and the order of fields does not
matter. Directly compared, a NaN differs from itself; inside an array or object, and as a member of
a set, it is found again. -/

mutual

/-- Whether two values are found equal as members. -/
def alike : Json → Json → Bool
  | null, null => true
  | str s, str t => s == t
  | arr xs, arr ys => alikeAll xs ys
  | obj fs, obj gs => fs.length == gs.length && alikeFields fs gs
  | float .nan, float .nan => true
  | x, y => match x.number?, y.number? with
    | some a, some b => a.eq b
    | _, _ => false
termination_by structural x => x

def alikeAll : List Json → List Json → Bool
  | [], [] => true
  | x :: xs, y :: ys => alike x y && alikeAll xs ys
  | _, _ => false
termination_by structural xs => xs

def alikeFields : List (String × Json) → List (String × Json) → Bool
  | [], _ => true
  | f :: fs, gs => alikeField f gs && alikeFields fs gs
termination_by structural fs => fs

def alikeField : String × Json → List (String × Json) → Bool
  | (name, x), gs => match gs.lookup name with
    | some y => alike x y
    | none => false
termination_by structural f => f

end

/-- Whether two values are equal when compared directly. -/
def equals (x y : Json) : Bool :=
  match x, y with
  | float .nan, _ => false
  | _, float .nan => false
  | x, y => alike x y

/-- Arrays and objects cannot be members of a set or names of an index. -/
def isKey : Json → Bool
  | arr _ => false
  | obj _ => false
  | _ => true

end Json

end CardImport
