namespace Foreman

-- A byte string. It holds UTF-8 in most uses, but no operation relies on that.
abbrev Text := List UInt8

namespace Text

def ofString (s : String) : Text :=
  s.toList.flatMap String.utf8EncodeChar

instance : Coe String Text := ⟨ofString⟩

instance : Coe Char UInt8 := ⟨Char.toUInt8⟩

-- The six blanks: space, tab, line feed, vertical tab, form feed and carriage return.
def isBlank (c : UInt8) : Bool :=
  c == 32 || (9 ≤ c && c ≤ 13)

def isDigit (c : UInt8) : Bool :=
  '0' ≤ c && c ≤ '9'

def isUpper (c : UInt8) : Bool :=
  'A' ≤ c && c ≤ 'Z'

def isLetter (c : UInt8) : Bool :=
  isUpper c || ('a' ≤ c && c ≤ 'z')

-- Only the 26 ASCII capitals change.
def lowerByte (c : UInt8) : UInt8 :=
  if isUpper c then c + 32 else c

def lower (t : Text) : Text :=
  t.map lowerByte

def stripLeft (t : Text) : Text :=
  t.dropWhile isBlank

def stripRight (t : Text) : Text :=
  (t.reverse.dropWhile isBlank).reverse

def strip (t : Text) : Text :=
  stripRight (stripLeft t)

-- The pieces between separators. There is always at least one piece, and adjacent, leading or
-- trailing separators give empty pieces.
def split (sep : UInt8) : Text → List Text
  | [] => [[]]
  | c :: rest =>
    if c = sep then [] :: split sep rest
    else
      match split sep rest with
      | [] => [[c]]
      | piece :: pieces => (c :: piece) :: pieces

def join (sep : UInt8) : List Text → Text
  | [] => []
  | [piece] => piece
  | piece :: next :: pieces => piece ++ sep :: join sep (next :: pieces)

def orElse (a b : Text) : Text :=
  if a.isEmpty then b else a

-- The first text while `count` is 0, the other one afterwards: a separator that is silent the
-- first time it is asked for.
def separator (first other : Text) (count : Nat) : Text :=
  if count = 0 then first else other

def intercalate (sep : Text) (pieces : List Text) : Text :=
  (pieces.zipIdx.map fun (piece, i) => separator [] sep i ++ piece).flatten

-- What stands before the first NUL byte, the part that a NUL-terminated interface sees.
def untilNul (t : Text) : Text :=
  t.takeWhile (· != 0)

end Text

end Foreman
