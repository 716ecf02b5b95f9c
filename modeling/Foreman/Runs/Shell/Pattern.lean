import Foreman.Text.Basic

namespace Foreman.Shell

inductive PatternItem where
  | byte (c : UInt8)
  | any
  | many
  -- one of the bytes in the ranges, or one that is in none of them
  | oneOf (negated : Bool) (ranges : List (UInt8 × UInt8))
deriving DecidableEq, Repr

abbrev Pattern := List PatternItem

namespace Pattern

def inRanges (ranges : List (UInt8 × UInt8)) (c : UInt8) : Bool :=
  ranges.any fun (low, high) => low ≤ c && c ≤ high

def fits : Pattern → Text → Bool
  | [], t => t.isEmpty
  | .many :: items, t => (List.range (t.length + 1)).any fun n => fits items (t.drop n)
  | .byte d :: items, c :: t => c == d && fits items t
  | .any :: items, _ :: t => fits items t
  | .oneOf negated ranges :: items, c :: t => (inRanges ranges c != negated) && fits items t
  | _ :: _, [] => false

def literal (t : Text) : Pattern :=
  t.map .byte

def rangesOf : Text → List (UInt8 × UInt8)
  | low :: dash :: high :: rest =>
    if dash = '-' then (low, high) :: rangesOf rest
    else (low, low) :: rangesOf (dash :: high :: rest)
  | c :: rest => (c, c) :: rangesOf rest
  | [] => []

-- A text whose special bytes are active. `skip` bytes belong to brackets that were dealt with.
def activeFrom (skip : Nat) : Text → Pattern
  | [] => []
  | c :: rest =>
    match skip with
    | n + 1 => activeFrom n rest
    | 0 =>
      if c = '*' then .many :: activeFrom 0 rest
      else if c = '?' then .any :: activeFrom 0 rest
      else if c = '[' then
        let inside := rest.takeWhile fun (c : UInt8) => c != ']'
        if inside.length = rest.length then .byte c :: activeFrom 0 rest
        else
          let negated : Bool := inside.head? = some '!'
          .oneOf negated (rangesOf (if negated then inside.tail else inside)) ::
            activeFrom (inside.length + 1) rest
      else .byte c :: activeFrom 0 rest

def active (t : Text) : Pattern := activeFrom 0 t

-- What is left of a text without the part at its start, or at its end, that fits the pattern: the
-- shortest or the longest such part.
def strip (pattern : Pattern) (atEnd longest : Bool) (t : Text) : Text :=
  let lengths := List.range (t.length + 1)
  let lengths := if longest then lengths.reverse else lengths
  let part (n : Nat) : Text := if atEnd then t.drop (t.length - n) else t.take n
  match lengths.find? fun n => pattern.fits (part n) with
  | none => t
  | some n => if atEnd then t.take (t.length - n) else t.drop n

end Pattern

end Foreman.Shell
