import Foreman.Number.Decimal
import Foreman.Text.Layout

namespace Foreman.Shell

namespace Escape

-- What the letters behind a backslash stand for, and the backslash itself.
def letters : List (UInt8 × UInt8) :=
  [('a', 7), ('b', 8), ('f', 12), ('n', 10), ('r', 13), ('t', 9), ('v', 11), (92, 92)]

def ofLetter (c : UInt8) : Option UInt8 := letters.lookup c

def isOctal (c : UInt8) : Bool :=
  '0' ≤ c && c ≤ '7'

def octalValue (digits : Text) : UInt8 :=
  UInt8.ofNat (digits.foldl (fun n c => n * 8 + digitValue c) 0)

-- A text without its backslashes, and whether it ends there for good. `skip` bytes were dealt with.
-- With `leadingZero` a zero may stand in front of three octal digits.
def plainFrom (leadingZero : Bool) (skip : Nat) : Text → Text × Bool
  | [] => ([], false)
  | c :: rest =>
    let put (t : Text) (after : Text × Bool) : Text × Bool := (t ++ after.1, after.2)
    match skip with
    | n + 1 => plainFrom leadingZero n rest
    | 0 =>
      if c != 92 then put [c] (plainFrom leadingZero 0 rest)
      else
        match rest with
        | [] => ([c], false)
        | d :: more =>
          if leadingZero && d = 'c' then ([], true)
          else if isOctal d then
            let zero := leadingZero && d = '0'
            let digits := ((if zero then more else rest).take 3).takeWhile isOctal
            put [octalValue digits] (plainFrom leadingZero (digits.length + zero.toNat) rest)
          else
            match ofLetter d with
            | some e => put [e] (plainFrom leadingZero 1 rest)
            | none => put [c, d] (plainFrom leadingZero 1 rest)

-- In an argument a zero may lead octal digits, and the letter c ends everything.
def argument (t : Text) : Text × Bool := plainFrom true 0 t

def format (t : Text) : Text := (plainFrom false 0 t).1

end Escape

namespace Format

structure Directive where
  left : Bool
  zero : Bool
  width : Nat
  precision : Option Nat
  conversion : UInt8

def directive (t : Text) : Option (Directive × Text) :=
  let flags := t.takeWhile fun c => ("-0+ #" : Text).contains c
  let t := t.dropWhile fun c => ("-0+ #" : Text).contains c
  let width := t.takeWhile Text.isDigit
  let t := t.dropWhile Text.isDigit
  let (precision, t) :=
    if t.head? = some '.' then
      (some (Decimal.value (t.tail.takeWhile Text.isDigit)), t.tail.dropWhile Text.isDigit)
    else (none, t)
  match t with
  | [] => none
  | c :: rest =>
    some (⟨flags.contains '-', flags.contains '0', Decimal.value width, precision, c⟩, rest)

def number (t : Text) : Int :=
  let negative := t.head? = some '-'
  let n : Int := Decimal.value ((if negative then t.tail else t).takeWhile Text.isDigit)
  if negative then -n else n

-- An argument in the form that a directive asks for, and whether everything ends there.
def convert (d : Directive) (t : Text) : Option (Text × Bool) :=
  let pad (t : Text) (fill : UInt8) : Text := t.widen d.width (!d.left) fill
  let cut (t : Text) : Text := (d.precision.map t.take).getD t
  if d.conversion = 's' then some (pad (cut t) 32, false)
  else if d.conversion = 'b' then
    let (plain, ended) := Escape.argument t
    some (pad (cut plain) 32, ended)
  else if d.conversion = 'c' then some (pad (t.take 1) 32, false)
  else if ("diu" : Text).contains d.conversion then
    some (pad (Decimal.text (number t)) (if d.zero && !d.left then '0' else 32), false)
  else none

-- A format used once: what it prints, the arguments that are left, and whether everything ends
-- there. Directives without argument print as for an empty one.
def once : (fuel : Nat) → Text → List Text → Option (Text × List Text × Bool)
  | 0, _, _ => none
  | _, [], args => some ([], args, false)
  | fuel + 1, c :: rest, args =>
    if c != '%' then do
      let text := c :: rest.takeWhile fun c => c != '%'
      let (more, args, ended) ← once fuel (rest.dropWhile fun c => c != '%') args
      pure (Escape.format text ++ more, args, ended)
    else if rest.head? = some '%' then do
      let (more, args, ended) ← once fuel rest.tail args
      pure (c :: more, args, ended)
    else do
      let (d, rest) ← directive rest
      let (text, ended) ← convert d (args.headD [])
      if ended then pure (text, [], true)
      else
        let (more, args, ended) ← once fuel rest args.tail
        pure (text ++ more, args, ended)

def all : (fuel : Nat) → Text → List Text → Option Text
  | 0, _, _ => none
  | fuel + 1, t, args => do
    let (text, left, ended) ← once (t.length + 1) t args
    if ended || left.isEmpty || left.length = args.length then pure text
    else pure (text ++ (← all fuel t left))

end Format

-- A format with its arguments, if it is in the language.
def formatted (t : Text) (args : List Text) : Option Text :=
  Format.all (args.length + 1) t args

end Foreman.Shell
