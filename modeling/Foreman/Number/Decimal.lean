import Foreman.Text.Basic

namespace Foreman

def digitByte (n : Nat) : UInt8 := UInt8.ofNat (48 + n)

-- The value of a digit byte. Other bytes have none of their own.
def digitValue (c : UInt8) : Nat := c.toNat - 48

namespace Decimal

-- The digits of a number without leading zeros, 0 having one digit.
def digits (n : Nat) : Text :=
  if n < 10 then [digitByte n] else digits (n / 10) ++ [digitByte (n % 10)]

def value (t : Text) : Nat :=
  t.foldl (fun acc c => acc * 10 + digitValue c) 0

-- Exactly `width` digits, the higher ones being dropped.
def fixed (n : Nat) : (width : Nat) → Text
  | 0 => []
  | width + 1 => fixed (n / 10) width ++ [digitByte (n % 10)]

def text (n : Int) : Text :=
  match n with
  | .ofNat n => digits n
  | .negSucc n => '-' :: digits (n + 1)

end Decimal

end Foreman
