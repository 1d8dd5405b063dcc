import CardImport.Number.Basic

/-!
# Sizes

Sizes in bytes as people read them: whole bytes below 1024, above that one place after the point
and the unit in which the number stays below 1024.
-/

namespace CardImport.Size

def units : List String := ["KiB", "MiB", "GiB", "TiB"]

/-- The unit of what is too large for the others. -/
def lastUnit : String := "PiB"

def step : Nat := 1024

def stepDown (x : Binary64) : Binary64 := (x.div? (Binary64.ofNat step)).getD .nan

def inUnits (x : Binary64) : List String → String
  | [] => x.fixed 1 ++ " " ++ lastUnit
  | unit :: rest =>
    if x.compareInt? step == some .lt then x.fixed 1 ++ " " ++ unit
    else inUnits (stepDown x) rest

def text (size : Number) : Except NumberError String := do
  if size.eq (.whole 1) then return "1 byte"
  else if size.lt (.whole step) then return (← size.toBinary).fixed 0 ++ " bytes"
  else return inUnits (← size.divNat step) units

end CardImport.Size
