import Foreman.Number.FixedPoint
import Foreman.Number.IntType

namespace Foreman

inductive SizeUnit where
  | one
  | kilo
  | mega
  | giga
  | tera
  | peta
  | exa
deriving DecidableEq, Repr

namespace SizeUnit

def rank : SizeUnit → Nat
  | one => 0
  | kilo => 1
  | mega => 2
  | giga => 3
  | tera => 4
  | peta => 5
  | exa => 6

def next? : SizeUnit → Option SizeUnit
  | one => some kilo
  | kilo => some mega
  | mega => some giga
  | giga => some tera
  | tera => some peta
  | peta => some exa
  | exa => none

def letter? : SizeUnit → Option UInt8
  | one => none
  | kilo => some 'k'
  | mega => some 'M'
  | giga => some 'G'
  | tera => some 'T'
  | peta => some 'P'
  | exa => some 'E'

-- The unit of a letter. A NUL byte stands for no letter.
def ofByte? (c : UInt8) : Option SizeUnit :=
  if c = 0 then some one
  else if c = 'k' then some kilo
  else if c = 'M' then some mega
  else if c = 'G' then some giga
  else if c = 'T' then some tera
  else if c = 'P' then some peta
  else if c = 'E' then some exa
  else none

end SizeUnit

inductive SizeError where
  -- no number at the start, or one out of the range of doubles
  | unrecognized (text : Text)
  -- more than one byte follows the number
  | partlyRecognized (text : Text)
  | badSuffix (c : UInt8)
  | overflow
  | underflow
deriving DecidableEq

def SizeError.message : SizeError → Text
  | unrecognized text => "unrecognized value " ++ text
  | partlyRecognized text => "partially recognized value " ++ text
  | badSuffix c => "unrecognized suffix " ++ [c]
  | overflow => "overflow"
  | underflow => "underflow"

namespace Size

-- The whole number nearest to a bound of the type on the side away from zero, as far as doubles
-- tell them apart: one less than the least number of a signed 64-bit type is that number itself.
def lowerBound (t : IntType) : Int :=
  if t.min < -Nat.pow 2 53 then t.min else t.min - 1

-- The integer that a whole number out of the range becomes: unsigned types wrap around, signed
-- ones take their least number.
def coerce (t : IntType) (n : Int) : Int :=
  if t.Fits n then n else if t.signed then t.min else t.wrap n

-- A size in `unit`. The text is a number and at most one letter, the number being a double that
-- is scaled, checked against the range of the type, and only then made whole.
def read (unit : SizeUnit) (t : IntType) (roundUp : Bool) (text : Text) : Except SizeError Int :=
  match FixedPoint.scan text with
  | none => .error (.unrecognized text)
  | some (number, rest) =>
    if rest.length > 1 then .error (.partlyRecognized text)
    else
      let suffix := rest.head?.getD 0
      match SizeUnit.ofByte? suffix with
      | none => .error (.badSuffix suffix)
      | some given =>
        let scaled := number.scaleTwo (10 * ((given.rank : Int) - unit.rank))
        if !scaled.below (t.max + 1) then .error .overflow
        else if !scaled.above (lowerBound t) then .error .underflow
        else
          match if roundUp then scaled.ceil? else scaled.floor? with
          | none => .error .overflow
          | some n => .ok (coerce t n)

-- Exact division by 1024 as long as it is possible and there is a larger unit.
def normalize : (fuel : Nat) → Int → SizeUnit → Int × SizeUnit
  | 0, n, unit => (n, unit)
  | fuel + 1, n, unit =>
    match unit.next? with
    | none => (n, unit)
    | some larger => if n % 1024 = 0 then normalize fuel (n / 1024) larger else (n, unit)

-- The shortest text of a size in `unit`: the largest unit in which it is whole. Zero keeps its
-- unit.
def write (unit : SizeUnit) (n : Int) : Text :=
  let (n, unit) := if n = 0 then (n, unit) else normalize 6 n unit
  Decimal.text n ++ unit.letter?.toList

def readBytes (text : Text) : Except SizeError Nat :=
  (read .one .u64 false text).map Int.toNat

def writeBytes (n : Nat) : Text :=
  write .one n

end Size

end Foreman
