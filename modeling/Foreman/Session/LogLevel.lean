import Foreman.Enumeration.Basic

namespace Foreman

-- In increasing importance. A message is shown if its level is at least that of the session.
inductive LogLevel where
  | debug
  | info
  | lifecycle
  | warn
  | quiet
  | error
deriving DecidableEq, Repr

instance : Enumeration LogLevel where
  typeName := "LogLevel"
  values := [.debug, .info, .lifecycle, .warn, .quiet, .error]
  number
    | .debug => 0
    | .info => 1
    | .lifecycle => 2
    | .warn => 3
    | .quiet => 4
    | .error => 5
  camel
    | .debug => "Debug"
    | .info => "Info"
    | .lifecycle => "Lifecycle"
    | .warn => "Warn"
    | .quiet => "Quiet"
    | .error => "Error"

instance : Inhabited LogLevel := ⟨.lifecycle⟩

namespace LogLevel

def name (level : LogLevel) : Text := Enumeration.snake level

def shownAt (level session : LogLevel) : Bool :=
  Enumeration.number session ≤ Enumeration.number level

end LogLevel

end Foreman
