import Foreman.Number.Decimal
import Foreman.Number.Double
import Foreman.Text.Layout

namespace Foreman

namespace Time

def ticksPerSecond : Nat := 1000000000

-- The first `precision` of the nine decimals of a number of nanoseconds below one second, after
-- a point. No decimal, no point.
def fraction (nanoseconds precision : Nat) : Text :=
  if precision = 0 then []
  else '.' :: Decimal.fixed (nanoseconds / Nat.pow 10 (9 - precision)) precision

end Time

structure Delay where
  ticks : Int64
deriving DecidableEq

namespace Delay

def ofInt (n : Int) : Delay := ⟨Int64.ofInt n⟩

def ofSeconds (n : Int) : Delay := ofInt (n * Time.ticksPerSecond)

def ofTimespec (seconds nanoseconds : Int) : Delay :=
  ofInt (seconds * Time.ticksPerSecond + nanoseconds)

-- Seconds as a double: the product is a double too, and is then made whole towards zero. A
-- product out of the range gives the least duration.
def ofDouble (seconds : Double) : Delay :=
  match (seconds.mulNat Time.ticksPerSecond).truncate? with
  | some n => if -Nat.pow 2 63 ≤ n ∧ n < Nat.pow 2 63 then ofInt n else ⟨Int64.minValue⟩
  | none => ⟨Int64.minValue⟩

def toInt (d : Delay) : Int := d.ticks.toInt

def seconds (d : Delay) : Int := d.toInt.tdiv Time.ticksPerSecond

def nanoseconds (d : Delay) : Int := d.toInt.tmod Time.ticksPerSecond

def milliseconds (d : Delay) : Int := d.toInt.tdiv 1000000

def toDouble (d : Delay) : Double :=
  (Double.ofInt d.toInt).divNat Time.ticksPerSecond

def add (a b : Delay) : Delay := ⟨a.ticks + b.ticks⟩

def sub (a b : Delay) : Delay := ⟨a.ticks - b.ticks⟩

instance : Add Delay := ⟨add⟩

instance : Sub Delay := ⟨sub⟩

-- Truncated towards zero to `precision` decimals.
def text (d : Delay) (precision : Nat) : Text :=
  (if d.toInt < 0 then "-" else "") ++ Decimal.digits d.seconds.natAbs ++
    Time.fraction d.nanoseconds.natAbs precision

def print (d : Delay) : Text :=
  "D:" ++ d.text 9

-- Two fields with a letter or point between them, the first one in `width` bytes.
def fields (width major : Nat) (mark : Text) (digits minor : Nat) (unit : Text) : Text :=
  Text.widen (Decimal.digits major) width true 32 ++ mark ++
    Text.widen (Decimal.digits minor) digits true '0' ++ unit

-- Six bytes for durations that are not negative: the two largest units that fit, truncated.
def magnitudeText (milliseconds : Nat) : Text :=
  let v := milliseconds
  if v < 10 * 1000 then fields 1 (v / 1000) "." 3 (v % 1000) "s"
  else
    let v := v / 10
    if v < 60 * 100 then fields 2 (v / 100) "." 2 (v % 100) "s"
    else
      let v := v / 100
      if v < 60 * 60 then fields 2 (v / 60) "m" 2 (v % 60) "s"
      else
        let v := v / 60
        if v < 100 * 60 then fields 2 (v / 60) "h" 2 (v % 60) "m"
        else
          let v := v / 60
          if v < 100000 then Text.widen (Decimal.digits v) 5 true 32 ++ "h"
          else "forevr"

-- From the last range on, the text has no sign.
def short (d : Delay) : Text :=
  let magnitude := d.milliseconds.natAbs
  let endless := magnitude ≥ 100000 * 60 * 60 * 1000
  (if d.milliseconds < 0 && !endless then "-" else "") ++ magnitudeText magnitude

end Delay

end Foreman
