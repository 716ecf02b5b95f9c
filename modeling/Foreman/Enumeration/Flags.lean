import Foreman.Enumeration.Basic
import Foreman.Number.Bits

namespace Foreman

-- A set of values of `α`. Bits that stand for no value may be set and are carried along.
structure Flags (α : Type) where
  bits : UInt8

namespace Flags

@[ext]
theorem ext {α : Type} {a b : Flags α} (h : a.bits = b.bits) : a = b := by
  cases a
  cases b
  cases h
  rfl

instance {α : Type} : DecidableEq (Flags α) := fun a b =>
  decidable_of_iff (a.bits = b.bits) ⟨ext, congrArg bits⟩

variable {α : Type} [Enumeration α]

def none : Flags α := ⟨0⟩

def single (a : α) : Flags α := ⟨1 <<< UInt8.ofNat (Enumeration.number a)⟩

def union (a b : Flags α) : Flags α := ⟨a.bits ||| b.bits⟩

def inter (a b : Flags α) : Flags α := ⟨a.bits &&& b.bits⟩

-- Only the bits that stand for a value are set in a complement.
def compl (a : Flags α) : Flags α :=
  ⟨UInt8.ofNat (Bits.lowMask (Enumeration.count α)) &&& ~~~a.bits⟩

def all : Flags α := compl none

def subset (a b : Flags α) : Bool := a.bits &&& ~~~b.bits == 0

def contains (a : Flags α) (v : α) : Bool :=
  (a.bits >>> UInt8.ofNat (Enumeration.number v)) &&& 1 != 0

def isEmpty (a : Flags α) : Bool := a.bits == 0

def set (a : Flags α) (v : α) (present : Bool) : Flags α :=
  if present then a.union (single v) else a.inter (single v).compl

def ofList (vs : List α) : Flags α :=
  vs.foldl (fun flags v => flags.union (single v)) none

def toList (a : Flags α) : List α :=
  Enumeration.values.filter a.contains

def text (a : Flags α) : Text :=
  "(" ++ Text.intercalate "|" (a.toList.map Enumeration.snake) ++ ")"

-- A list of names. Empty pieces are skipped, and blanks around a name are not part of it.
def parse (sep : UInt8) (names : Text) : Except Text (Flags α) :=
  (Text.split sep names).foldlM
    (fun flags piece =>
      if piece.isEmpty then .ok flags
      else (Enumeration.ofName (Text.strip piece)).map fun v => flags.union (single v))
    none

end Flags

end Foreman
