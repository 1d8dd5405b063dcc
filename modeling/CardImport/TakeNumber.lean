import CardImport.Item
import CardImport.Failure

/-!
# Take numbers

A take number is free text that usually starts with a whole number, which is what consecutive
numbering goes on from.
-/

namespace CardImport.TakeNumber

/-- White space, a sign if there is one, and the digits up to the first other character. -/
def split (cs : List Char) : Bool × List Char :=
  let (negative, rest) := Number.splitSign (cs.dropWhile Text.isBlank)
  (negative, rest.takeWhile Text.isDigit)

/-- The whole number that a text starts with; none if it starts with none. -/
def parse? (num : String) : Except NumberError (Option Int) :=
  match split num.toList with
  | (_, []) => .ok none
  | (negative, digits) =>
    if digitLimit < digits.length then .error (.tooManyDigits digits.length)
    else .ok (some (if negative then -(Text.digitsValue digits : Int) else Text.digitsValue digits))

end CardImport.TakeNumber
