import CardImport.Text.Quoted

/-!
# What goes wrong with numbers

A text may not be a number, a number may have no whole part, and whole numbers may be too large to
be written or to become binary ones.
-/

namespace CardImport

/-- Whole numbers are read and written up to this number of decimal digits. -/
def digitLimit : Nat := 4300

inductive NumberError where
  /-- The text is no whole number. -/
  | notWhole (text : List Char)
  /-- The text is no number. -/
  | notNumber (text : List Char)
  /-- A text of that many digits. -/
  | tooManyDigits (count : Nat)
  | tooLongToWrite
  | wholeOfNaN
  | wholeOfInfinity
  | tooLargeForBinary
  | quotientTooLarge
deriving DecidableEq

/-- How much of a quoted text a message about whole numbers shows. -/
def shownQuotedLength : Nat := 200

def limitText : String := "Exceeds the limit (" ++ toString digitLimit ++
  " digits) for integer string conversion"

def limitAdvice : String := "; use sys.set_int_max_str_digits() to increase the limit"

def NumberError.message : NumberError → String
  | .notWhole text => "invalid literal for int() with base 10: " ++
      String.ofList ((Text.quotedChars text).take shownQuotedLength)
  | .notNumber text => "could not convert string to float: " ++
      String.ofList (Text.quotedChars text)
  | .tooManyDigits count =>
    limitText ++ ": value has " ++ toString count ++ " digits" ++ limitAdvice
  | .tooLongToWrite => limitText ++ limitAdvice
  | .wholeOfNaN => "cannot convert float NaN to integer"
  | .wholeOfInfinity => "cannot convert float infinity to integer"
  | .tooLargeForBinary => "int too large to convert to float"
  | .quotientTooLarge => "integer division result too large for a float"

end CardImport
