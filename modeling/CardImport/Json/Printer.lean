import CardImport.Json.Basic

/-!
# Writing JSON

Fields and elements stand on lines of their own, two spaces further in for each level, or all on
one line. Binary numbers have the fewest digits that read back. A text is written with the
characters above ASCII as they are, or as escapes of UTF-16 units.
-/

namespace CardImport.Json

/-- The form of a written value: lines and spaces, and whether non-ASCII characters are escaped. -/
structure Style where
  indented : Bool
  asciiOnly : Bool

/-- Files are indented and keep all characters. -/
def Style.file : Style := ⟨true, false⟩

/-- A report for another program is indented and plain ASCII. -/
def Style.report : Style := ⟨true, true⟩

/-- A short report takes one line. -/
def Style.line : Style := ⟨false, true⟩

/-! ## Texts -/

def unitEscape (unit : Nat) : List Char := '\\' :: 'u' :: Text.hexChars 4 unit

/-- The escape of a character: one UTF-16 unit, or the two of a surrogate pair. -/
def charEscape (c : Char) : List Char :=
  let n := c.toNat
  if n < 0x10000 then unitEscape n
  else unitEscape (0xd800 + (n - 0x10000) / 0x400) ++ unitEscape (0xdc00 + (n - 0x10000) % 0x400)

def writtenChar (asciiOnly : Bool) (c : Char) : List Char :=
  if c = '\x22' then ['\\', '\x22']
  else if c = '\\' then ['\\', '\\']
  else if c = '\n' then ['\\', 'n']
  else if c = '\r' then ['\\', 'r']
  else if c = '\t' then ['\\', 't']
  else if c = '\x08' then ['\\', 'b']
  else if c = '\x0c' then ['\\', 'f']
  else if c.toNat < 0x20 then charEscape c
  else if asciiOnly && 0x7e < c.toNat then charEscape c
  else [c]

def writtenText (asciiOnly : Bool) (cs : List Char) : List Char :=
  '\x22' :: cs.flatMap (writtenChar asciiOnly) ++ ['\x22']

/-! ## Numbers -/

def writtenBinary : Binary64 → List Char
  | .nan => ['N', 'a', 'N']
  | .infinite negative => Binary64.signed negative ['I', 'n', 'f', 'i', 'n', 'i', 't', 'y']
  | x@(.finite ..) => x.textChars

/-! ## Values -/

def Style.newline (style : Style) (depth : Nat) : List Char :=
  if style.indented then '\n' :: List.replicate (2 * depth) ' ' else []

def Style.separator (style : Style) (depth : Nat) : List Char :=
  if style.indented then ',' :: style.newline depth else [',', ' ']

/-- The items of an array or object between its brackets. -/
def Style.enclosed (style : Style) (depth : Nat) (opening closing : Char)
    (items : List (List Char)) : List Char :=
  match items with
  | [] => [opening, closing]
  | items =>
    opening :: style.newline (depth + 1) ++ (style.separator (depth + 1)).intercalate items ++
      style.newline depth ++ [closing]

mutual

/-- The written form of a value at a depth. -/
def written (style : Style) : Nat → Json → List Char
  | _, null => ['n', 'u', 'l', 'l']
  | _, bool true => ['t', 'r', 'u', 'e']
  | _, bool false => ['f', 'a', 'l', 's', 'e']
  | _, int n => (toString n).toList
  | _, float x => writtenBinary x
  | _, str s => writtenText style.asciiOnly s.toList
  | depth, arr xs => style.enclosed depth '[' ']' (writtenElements style (depth + 1) xs)
  | depth, obj fields =>
    style.enclosed depth '\x7b' '\x7d' (writtenFields style (depth + 1) fields)
termination_by structural _ x => x

def writtenElements (style : Style) : Nat → List Json → List (List Char)
  | _, [] => []
  | depth, x :: xs => written style depth x :: writtenElements style depth xs
termination_by structural _ xs => xs

def writtenFields (style : Style) : Nat → List (String × Json) → List (List Char)
  | _, [] => []
  | depth, f :: fs => writtenField style depth f :: writtenFields style depth fs
termination_by structural _ fs => fs

def writtenField (style : Style) : Nat → String × Json → List Char
  | depth, (name, x) =>
    writtenText style.asciiOnly name.toList ++ ':' :: ' ' :: written style depth x
termination_by structural _ f => f

end

def write (style : Style) (x : Json) : String := String.ofList (written style 0 x)

end CardImport.Json
