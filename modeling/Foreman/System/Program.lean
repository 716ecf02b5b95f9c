import Foreman.System.Ending
import Foreman.System.FileTree

namespace Foreman

structure Invocation where
  -- the first one is the name of the program
  arguments : List Text
  -- strings of the form name=value
  environment : List Text := []
  -- none for a directory that does not exist any more
  directory : Option Place := some []
  -- the bound of the data segment in bytes, if there is one
  heapLimit : Option Nat := none
  hasInput : Bool := true
  hasOutput : Bool := true
  hasErrors : Bool := true

structure Exposure where
  input : Text := []
  -- whether no more input will come
  ended : Bool := true
  -- how many pauses it had the time for
  pauses : Nat := 0

structure Activity where
  output : Text := []
  errors : Text := []
  -- whether nothing more can be written to the output
  silent : Bool := false
  ending : Option Ending := none
deriving DecidableEq

-- More input and more time never take back what a program has done.
abbrev Program := Invocation → Exposure → Activity

namespace Activity

def exited (code : Nat) (output errors : Text) : Activity :=
  ⟨output, errors, true, some (.exited code)⟩

end Activity

end Foreman
