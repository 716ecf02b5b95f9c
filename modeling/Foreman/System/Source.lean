import Foreman.Text.Basic

namespace Foreman

structure Source where
  -- the bytes not read yet
  rest : Text
  -- how many bytes each reading call moves, if it asks for more. Calls beyond the list move all
  -- that they ask for.
  grants : List Nat := []
deriving DecidableEq

namespace Source

-- How much a call moves at most. A call that asks for something moves at least one byte.
def grant (source : Source) (asked : Nat) : Nat :=
  match source.grants with
  | [] => asked
  | n :: _ => min asked (max n 1)

def take (source : Source) (asked : Nat) : Text × Source :=
  if asked = 0 then ([], source)
  else
    let n := source.grant asked
    (source.rest.take n, ⟨source.rest.drop n, source.grants.tail⟩)

theorem take_append (source : Source) (asked : Nat) :
    (source.take asked).1 ++ (source.take asked).2.rest = source.rest := by
  unfold take
  split
  · rfl
  · simp

theorem length_rest_take {source : Source} {asked : Nat} (h : (source.take asked).1 ≠ []) :
    (source.take asked).2.rest.length < source.rest.length := by
  have happend := congrArg List.length (take_append source asked)
  have hpos := List.length_pos_iff.2 h
  rw [List.length_append] at happend
  omega

-- Reads until `size` bytes are there or the file ends.
def read (source : Source) (size : Nat) : Text × Source :=
  if _done : (source.take size).1 = [] then source.take size
  else
    let chunk := (source.take size).1
    let (more, after) := (source.take size).2.read (size - chunk.length)
    (chunk ++ more, after)
termination_by source.rest.length
decreasing_by exact length_rest_take ‹_›

-- Reads to the end of the file. There is room for `room` bytes, of which `count` are taken, and
-- the room is doubled when it is used up.
def readRest (source : Source) (room count : Nat) : Text × Source :=
  let asked := max (room - count) 1
  if _done : (source.take asked).1 = [] then source.take asked
  else
    let chunk := (source.take asked).1
    let count := count + chunk.length
    let room := if count < room then room else 2 * room
    let (more, after) := (source.take asked).2.readRest room count
    (chunk ++ more, after)
termination_by source.rest.length
decreasing_by exact length_rest_take ‹_›

def readAll (source : Source) : Text × Source :=
  source.readRest 4096 0

-- Reads byte by byte up to the next line feed, which is taken and not part of the line. `line` is
-- what was read of the line, last byte first. A last line needs no line feed, unless it is empty.
def readLineAfter (source : Source) (line : Text) : Option Text × Source :=
  if _done : (source.take 1).1 = [] then
    (if line.isEmpty then none else some line.reverse, (source.take 1).2)
  else
    match (source.take 1).1 with
    | [] => (none, (source.take 1).2)
    | c :: _ =>
      if c = '\n' then (some line.reverse, (source.take 1).2)
      else (source.take 1).2.readLineAfter (c :: line)
termination_by source.rest.length
decreasing_by exact length_rest_take ‹_›

def readLine (source : Source) : Option Text × Source :=
  source.readLineAfter []

end Source

end Foreman
