namespace Foreman

-- A magnitude `m * 2 ^ q` or an infinite one. A finite magnitude that comes from rounding has
-- `m < 2 ^ 53` and `-1074 ≤ q`.
inductive Magnitude where
  | finite (m : Nat) (q : Int)
  | infinite
deriving DecidableEq, Repr

-- A magnitude with a sign, or no number at all.
inductive Double where
  | number (negative : Bool) (magnitude : Magnitude)
  | nan
deriving DecidableEq, Repr

namespace Magnitude

def zero : Magnitude := .finite 0 (-1074)

-- `num * 2 ^ shift / den` for a shift of either sign, as a numerator and a denominator.
def shifted (num den : Nat) (shift : Int) : Nat × Nat :=
  if 0 ≤ shift then (num * Nat.pow 2 shift.toNat, den) else (num, den * Nat.pow 2 (-shift).toNat)

-- The quotient rounded to the nearest whole number, a tie going to the even neighbour.
def roundQuotient (num den : Nat) : Nat :=
  let quotient := num / den
  let rest := num % den
  if 2 * rest < den then quotient
  else if den < 2 * rest then quotient + 1
  else if quotient % 2 = 0 then quotient else quotient + 1

-- The exponent of the last place of a quotient: the least one, from -1074 on, that leaves fewer
-- than 54 bits above it.
def lastPlace (num den : Nat) : Int :=
  let guess : Int := (num.log2 : Int) - den.log2 - 53
  let (n, d) := shifted num den (-guess)
  max (if n / d < Nat.pow 2 53 then guess else guess + 1) (-1074)

-- `num / den` rounded. Magnitudes from two to the 1024 on, after rounding, are infinite.
def ofRatio (num den : Nat) : Magnitude :=
  if num = 0 then zero
  else
    let q := lastPlace num den
    let (n, d) := shifted num den (-q)
    let m := roundQuotient n d
    let (m, q) := if m = Nat.pow 2 53 then (Nat.pow 2 52, q + 1) else (m, q)
    if q ≤ 971 then .finite m q else .infinite

def scale (magnitude : Magnitude) (num den : Nat) : Magnitude :=
  match magnitude with
  | .infinite => .infinite
  | .finite m q =>
    let (n, d) := shifted (m * num) den q
    ofRatio n d

def scaleTwo (magnitude : Magnitude) (exponent : Int) : Magnitude :=
  let (num, den) := shifted 1 1 exponent
  magnitude.scale num den

def floor (m : Nat) (q : Int) : Nat :=
  let (n, d) := shifted m 1 q
  n / d

def ceil (m : Nat) (q : Int) : Nat :=
  let (n, d) := shifted m 1 q
  (n + d - 1) / d

end Magnitude

namespace Double

def ofInt (n : Int) : Double :=
  .number (n < 0) (.ofRatio n.natAbs 1)

-- Whether a finite number is below, or above, a whole one. Infinities compare as expected, and
-- what is no number is neither.
def below (x : Double) (bound : Int) : Bool :=
  match x with
  | .nan => false
  | .number negative .infinite => negative
  | .number negative (.finite m q) =>
    let (n, d) := Magnitude.shifted m 1 q
    (if negative then -(n : Int) else n) < bound * d

def above (x : Double) (bound : Int) : Bool :=
  match x with
  | .nan => false
  | .number negative .infinite => !negative
  | .number negative (.finite m q) =>
    let (n, d) := Magnitude.shifted m 1 q
    bound * d < (if negative then -(n : Int) else n)

def scaleTwo (x : Double) (exponent : Int) : Double :=
  match x with
  | .nan => .nan
  | .number negative magnitude => .number negative (magnitude.scaleTwo exponent)

def floor? (x : Double) : Option Int :=
  match x with
  | .number negative (.finite m q) =>
    some (if negative then -(Magnitude.ceil m q : Int) else Magnitude.floor m q)
  | _ => none

def ceil? (x : Double) : Option Int :=
  match x with
  | .number negative (.finite m q) =>
    some (if negative then -(Magnitude.floor m q : Int) else Magnitude.ceil m q)
  | _ => none

def truncate? (x : Double) : Option Int :=
  match x with
  | .number negative (.finite m q) =>
    some (if negative then -(Magnitude.floor m q : Int) else Magnitude.floor m q)
  | _ => none

-- The 64 bits: sign, biased exponent, fraction.
def toBits (x : Double) : Nat :=
  match x with
  | .nan => 0x7ff8000000000000
  | .number negative magnitude =>
    (if negative then Nat.pow 2 63 else 0) +
      match magnitude with
      | .infinite => 0x7ff0000000000000
      | .finite m q =>
        if m < Nat.pow 2 52 then m else (q + 1075).toNat * Nat.pow 2 52 + (m - Nat.pow 2 52)

def ofBits (bits : Nat) : Double :=
  let negative : Bool := bits / Nat.pow 2 63 % 2 == 1
  let exponent : Nat := bits / Nat.pow 2 52 % 2048
  let fraction : Nat := bits % Nat.pow 2 52
  if exponent = 2047 then
    if fraction = 0 then .number negative .infinite else .nan
  else if exponent = 0 then .number negative (.finite fraction (-1074))
  else .number negative (.finite (Nat.pow 2 52 + fraction) (exponent - 1075))

def mulNat (x : Double) (n : Nat) : Double :=
  match x with
  | .nan => .nan
  | .number negative magnitude => .number negative (magnitude.scale n 1)

def divNat (x : Double) (n : Nat) : Double :=
  match x with
  | .nan => .nan
  | .number negative magnitude => .number negative (magnitude.scale 1 n)

end Double

end Foreman
