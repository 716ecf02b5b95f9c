import Foreman.Time.Delay

namespace Foreman

namespace Calendar

structure Day where
  year : Nat
  month : Nat
  day : Nat
deriving DecidableEq

def isLeap (year : Nat) : Bool :=
  year % 4 = 0 && (year % 100 ≠ 0 || year % 400 = 0)

-- The day that is `n` days after the first of March of the year 0. Years that start in March end
-- with the leap day, so that the lengths of their months repeat every five months.
def ofDaysSinceMarch (n : Nat) : Day :=
  let era := n / 146097
  let dayOfEra := n % 146097
  let yearOfEra := (dayOfEra - dayOfEra / 1460 + dayOfEra / 36524 - dayOfEra / 146096) / 365
  let dayOfYear := dayOfEra - (365 * yearOfEra + yearOfEra / 4 - yearOfEra / 100)
  let shifted := (5 * dayOfYear + 2) / 153
  let day := dayOfYear - (153 * shifted + 2) / 5 + 1
  let month := if shifted < 10 then shifted + 3 else shifted - 9
  let year := yearOfEra + era * 400 + if month ≤ 2 then 1 else 0
  ⟨year, month, day⟩

def ofDays (n : Nat) : Day :=
  ofDaysSinceMarch (n + 719468)

end Calendar

-- A point in time, 64 bits wide and wrapping around. Tick 0 means that no time is set.
structure Date where
  ticks : UInt64
deriving DecidableEq

namespace Date

def ofTimespec (seconds nanoseconds : Int) : Date :=
  ⟨UInt64.ofInt (seconds * Time.ticksPerSecond + nanoseconds)⟩

def toNat (d : Date) : Nat := d.ticks.toNat

def seconds (d : Date) : Nat := d.toNat / Time.ticksPerSecond

def nanoseconds (d : Date) : Nat := d.toNat % Time.ticksPerSecond

def milliseconds (d : Date) : Nat := d.toNat / 1000000

def addDelay (d : Date) (delay : Delay) : Date := ⟨d.ticks + delay.ticks.toUInt64⟩

instance : HAdd Date Delay Date := ⟨addDelay⟩

def since (d other : Date) : Delay := ⟨(d.ticks - other.ticks).toInt64⟩

-- Years have four digits up to 9999 and all of theirs afterwards.
def dayText (days : Nat) : Text :=
  let day := Calendar.ofDays days
  Text.widen (Decimal.digits day.year) 4 true '0' ++ "-" ++ Decimal.fixed day.month 2 ++ "-" ++
    Decimal.fixed day.day 2

def clockText (secondsOfDay : Nat) : Text :=
  Decimal.fixed (secondsOfDay / 3600) 2 ++ ":" ++ Decimal.fixed (secondsOfDay / 60 % 60) 2 ++
    ":" ++ Decimal.fixed (secondsOfDay % 60) 2

-- The time with `precision` decimals of the second, after its day unless `inDay` asks for the
-- time of day only.
def text (d : Date) (precision : Nat) (inDay : Bool) : Text :=
  if d.ticks = 0 then "None"
  else
    let day : Text := if inDay then "" else dayText (d.seconds / 86400) ++ " "
    day ++ clockText (d.seconds % 86400) ++ Time.fraction d.nanoseconds precision

def print (d : Date) : Text :=
  "PD:" ++ d.text 9 false

end Date

end Foreman
