import Foreman.Text.Layout

namespace Foreman.Comparable

-- Whether a text has the shape of another one, whose zeros stand for digits.
def hasShape (shape t : Text) : Bool :=
  t.length = shape.length &&
    (t.zip shape).all fun (c, s) => if s = '0' then Text.isDigit c else c == s

-- The time of day after the mark and the thread of a record.
def withoutTime (line : Text) : Text :=
  if (line.head? = some 39 || line.head? = some 34) &&
      hasShape "00:00:00.000000" ((line.drop 2).take 15) then
    line.take 2 ++ "<time>" ++ line.drop 17
  else line

-- The durations that are words of a record. `skip` bytes have been dealt with.
def withoutDurations (skip : Nat) : Text → Text
  | [] => []
  | c :: rest =>
    match skip with
    | n + 1 => withoutDurations n rest
    | 0 =>
      if (" D:" : Text).isPrefixOf (c :: rest) &&
          hasShape "0.000000000" ((rest.drop 2).take 11) then
        " D:<elapsed>" ++ withoutDurations 13 rest
      else c :: withoutDurations 0 rest

-- The records of a trace, and what follows the last one.
def traceLines (content : Text) : List Text :=
  (Text.split '\n' content).map fun line => withoutDurations 0 (withoutTime line)

-- The first short duration in parentheses.
def withoutShort : Text → Text
  | [] => []
  | c :: rest =>
    if c = '(' && (rest.drop 6).head? = some ')' && hasShape "0.000s" (rest.take 6) then
      "(<elapsed>)" ++ rest.drop 7
    else c :: withoutShort rest

-- A text with a change in what follows the first occurrence of a part, if there is one.
def changedAfter (part : Text) (change : Text → Text) : Text → Text
  | [] => []
  | c :: rest =>
    if part.isPrefixOf (c :: rest) then part ++ change ((c :: rest).drop part.length)
    else c :: changedAfter part change rest

def started : Text := "started worker daemon process "

-- Messages about workers that were started.
def reports (messages : Text) : Text :=
  Text.join '\n' ((Text.split '\n' messages).map (changedAfter started withoutShort))

-- The number of a worker, which depends on what else runs.
def withoutNumber (t : Text) : Text :=
  changedAfter "worker daemon " (fun rest => '#' :: rest.dropWhile Text.isDigit) t

-- A record about a worker that was started.
def startRecord (line : Text) : Text :=
  changedAfter started (fun rest => withoutShort (withoutNumber rest)) line

end Foreman.Comparable
