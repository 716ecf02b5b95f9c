namespace Foreman.Bits

-- How many bits tell `n` states apart. One state needs none, and no state at all is taken for
-- two to the 64.
def countFor (n : UInt64) : Nat :=
  let last := (n - 1).toNat
  if last = 0 then 0 else last.log2 + 1

def lowMask (width : Nat) : Nat :=
  Nat.pow 2 width - 1

end Foreman.Bits
