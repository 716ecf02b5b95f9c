import Foreman.Text.Basic

namespace Foreman

-- A width in bits, and whether negative numbers are included.
structure IntType where
  bits : Nat
  signed : Bool
deriving DecidableEq, Repr

namespace IntType

def u8 : IntType := ⟨8, false⟩
def i8 : IntType := ⟨8, true⟩
def u16 : IntType := ⟨16, false⟩
def i16 : IntType := ⟨16, true⟩
def u32 : IntType := ⟨32, false⟩
def i32 : IntType := ⟨32, true⟩
def u64 : IntType := ⟨64, false⟩
def i64 : IntType := ⟨64, true⟩

def ofName? (name : Text) : Option IntType :=
  ([("u8", u8), ("i8", i8), ("u16", u16), ("i16", i16), ("u32", u32), ("i32", i32), ("u64", u64),
    ("i64", i64)] : List (Text × IntType)).lookup name

def min (t : IntType) : Int :=
  if t.signed then -Nat.pow 2 (t.bits - 1) else 0

def max (t : IntType) : Int :=
  if t.signed then Nat.pow 2 (t.bits - 1) - 1 else Nat.pow 2 t.bits - 1

def Fits (t : IntType) (n : Int) : Prop :=
  t.min ≤ n ∧ n ≤ t.max

instance (t : IntType) (n : Int) : Decidable (t.Fits n) :=
  inferInstanceAs (Decidable (_ ∧ _))

-- The number of the type that differs from `n` by a multiple of two to the width.
def wrap (t : IntType) (n : Int) : Int :=
  if t.signed then n.bmod (Nat.pow 2 t.bits) else n % Nat.pow 2 t.bits

end IntType

end Foreman
