import Foreman.System.Ending
import Foreman.System.Environment
import Foreman.Text.Layout
import Foreman.Text.Shown
import Foreman.Time.Date

namespace Foreman

structure Aftermath where
  written : Text := []
  ending : Option Ending := none
deriving DecidableEq

structure Witness where
  -- tells the thread, a question mark when there is only one
  threadKey : UInt8 := '?'
  now : Date
  busy : Bool := false

namespace Witness

def crashReport (w : Witness) (words : List Text) : Text :=
  let thread : Text := if w.threadKey = '?' then "" else ":" ++ [w.threadKey]
  "execore" ++ thread ++ " (" ++ w.now.text 3 false ++ ") :" ++ words.flatMap (32 :: ·) ++ "\n"

def crash (w : Witness) (words : List Text) : Aftermath where
  written := if w.busy then [] else w.crashReport words
  ending := some (.signaled Signal.abort)

def fail (w : Witness) (words : List Text) : Aftermath :=
  w.crash ("fail : " :: words)

def require (w : Witness) (condition : Bool) (words : List Text) : Aftermath :=
  if condition then {} else w.crash ("assertion violation : " :: words)

def setVariable (w : Witness) (name value : Text) : Aftermath :=
  w.require (Environment.isName name.untilNul) ["cannot setenv", name, "to", value]

def unsetVariable (w : Witness) (name : Text) : Aftermath :=
  w.require (Environment.isName name.untilNul) ["cannot unsetenv", name]

-- Numbers up to 1 stand for more than one process, or for the first one of all.
def killProcess (w : Witness) (pid : Int) : Aftermath :=
  w.require (1 < pid) ["killing process", Decimal.text pid]

end Witness

namespace Aftermath

-- The process is done. The message is a whole line, and only the lowest byte of the code counts.
def exit (code : Nat) (message : Text) : Aftermath :=
  ⟨message.endLine, some (.exited (code % 256))⟩

end Aftermath

end Foreman
