import Foreman.Number.Decimal
import Foreman.Number.Double
import Foreman.Text.Basic

namespace Foreman.FixedPoint

def startsWithWord (word text : Text) : Bool :=
  word.isPrefixOf (Text.lower text)

-- What follows a parenthesised run of letters, digits and underscores, if the text starts with
-- one.
def dropPayload (text : Text) : Text :=
  let inner := text.tail
  let rest := inner.dropWhile fun c => Text.isLetter c || Text.isDigit c || c == '_'
  if text.head? = some '(' && rest.head? = some ')' then rest.tail else text

def scanWord (negative : Bool) (text : Text) : Option (Double × Text) :=
  if startsWithWord "nan" text then some (.nan, dropPayload (text.drop 3))
  else if startsWithWord "infinity" text then some (.number negative .infinite, text.drop 8)
  else if startsWithWord "inf" text then some (.number negative .infinite, text.drop 3)
  else none

-- The digits before the point, those behind it, and what follows. The point is taken only if it
-- is there.
def splitDigits (text : Text) : Text × Text × Text :=
  let whole := text.takeWhile Text.isDigit
  let rest := text.dropWhile Text.isDigit
  if rest.head? = some '.' then
    (whole, rest.tail.takeWhile Text.isDigit, rest.tail.dropWhile Text.isDigit)
  else (whole, [], rest)

-- The number at the start of a text, and what follows it. There is none without a digit, and
-- none if the nearest double is infinite, or zero for a number that is not.
def scan (text : Text) : Option (Double × Text) :=
  let negative : Bool := text.head? = some '-'
  let body := if negative then text.tail else text
  let (whole, fraction, rest) := splitDigits body
  if whole.isEmpty && fraction.isEmpty then scanWord negative body
  else
    let num := Decimal.value (whole ++ fraction)
    match Magnitude.ofRatio num (Nat.pow 10 fraction.length) with
    | .infinite => none
    | .finite m q => if m = 0 && num != 0 then none else some (.number negative (.finite m q), rest)

end Foreman.FixedPoint
