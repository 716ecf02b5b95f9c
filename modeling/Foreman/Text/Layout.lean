import Foreman.Text.Basic

namespace Foreman.Text

-- A non-empty text ends its last line. The empty text has no line and stays empty.
def endLine (t : Text) : Text :=
  match t.getLast? with
  | none => t
  | some c => if c = '\n' then t else t ++ "\n"

-- `margin` goes in front of every line, a line being opened by its first byte: nothing follows
-- the last line feed.
def indentWith (margin : Text) (startOfLine : Bool) : Text → Text
  | [] => []
  | c :: rest =>
    (if startOfLine then margin else []) ++ c :: indentWith margin (c = '\n') rest

def indent (t margin : Text) : Text :=
  indentWith margin true t

-- Pads on the right, or on the left when `right` aligns the text to the right. Longer texts are
-- kept whole.
def widen (t : Text) (size : Nat) (right : Bool) (fill : UInt8) : Text :=
  let padding := List.replicate (size - t.length) fill
  if right then padding ++ t else t ++ padding

def hexDigit (n : Nat) : UInt8 :=
  if n < 10 then UInt8.ofNat (48 + n) else UInt8.ofNat (87 + n)

def hex (n : Nat) : (width : Nat) → Text
  | 0 => []
  | width + 1 => hex (n / 16) width ++ [hexDigit (n % 16)]

end Foreman.Text
