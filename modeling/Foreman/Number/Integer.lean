import Foreman.Number.Decimal
import Foreman.Number.IntType

namespace Foreman

inductive IntegerError where
  | malformed
  -- the number at the start does not fit
  | outOfRange
  -- a flag is 0 or 1
  | notAFlag
  | trailing (text : Text)
deriving DecidableEq

def IntegerError.message : IntegerError → Text
  | malformed => "Invalid argument"
  | outOfRange => "Numerical result out of range"
  | notAFlag => "bool value must be 0 or 1"
  | trailing text => "trailing garbage in " ++ text

namespace Integer

def scan (t : IntType) (text : Text) : Except IntegerError (Int × Text) :=
  let negative := t.signed && text.head? = some '-'
  let body := if negative then text.tail else text
  let digits := body.takeWhile Text.isDigit
  let magnitude : Int := Decimal.value digits
  let n := if negative then -magnitude else magnitude
  if digits.isEmpty then .error .malformed
  else if t.Fits n then .ok (n, body.dropWhile Text.isDigit)
  else .error .outOfRange

-- `emptyOk` makes the empty text a zero.
def read (t : IntType) (text : Text) (emptyOk : Bool) : Except IntegerError Int :=
  if emptyOk && text.isEmpty then .ok 0
  else
    match scan t text with
    | .error e => .error e
    | .ok (n, rest) => if rest.isEmpty then .ok n else .error (.trailing text)

-- A flag is read as a 64-bit number, and that it is 0 or 1 is asked before what follows it.
def readFlag (text : Text) (emptyOk : Bool) : Except IntegerError Bool :=
  if emptyOk && text.isEmpty then .ok false
  else
    match scan .u64 text with
    | .error e => .error e
    | .ok (n, rest) =>
      if n > 1 then .error .notAFlag
      else if rest.isEmpty then .ok (n = 1)
      else .error (.trailing text)

end Integer

end Foreman
