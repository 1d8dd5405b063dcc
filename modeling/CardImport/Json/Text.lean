import CardImport.Json.Basic
import CardImport.Text.Quoted

/-!
# Values inside messages

How a value is shown in a message: a text as it is, and quoted when it stands inside an array or an
object.
-/

namespace CardImport.Json

def commaSeparated (items : List (List Char)) : List Char :=
  [',', ' '].intercalate items

mutual

def shownChars : Json → List Char
  | null => ['N', 'o', 'n', 'e']
  | bool true => ['T', 'r', 'u', 'e']
  | bool false => ['F', 'a', 'l', 's', 'e']
  | int n => (toString n).toList
  | float x => x.textChars
  | str s => Text.quotedChars s.toList
  | arr xs => '[' :: commaSeparated (shownElements xs) ++ [']']
  | obj fields => '\x7b' :: commaSeparated (shownFields fields) ++ ['\x7d']
termination_by structural x => x

def shownElements : List Json → List (List Char)
  | [] => []
  | x :: xs => shownChars x :: shownElements xs
termination_by structural xs => xs

def shownFields : List (String × Json) → List (List Char)
  | [] => []
  | f :: fs => shownField f :: shownFields fs
termination_by structural fs => fs

def shownField : String × Json → List Char
  | (name, x) => Text.quotedChars name.toList ++ ':' :: ' ' :: shownChars x
termination_by structural f => f

end

/-- What a value is called in a message about its type. -/
def typeName : Json → String
  | null => "NoneType"
  | bool _ => "bool"
  | int _ => "int"
  | float _ => "float"
  | str _ => "str"
  | arr _ => "list"
  | obj _ => "dict"

def shown (x : Json) : String := String.ofList x.shownChars

def text : Json → String
  | str s => s
  | x => x.shown

end CardImport.Json
