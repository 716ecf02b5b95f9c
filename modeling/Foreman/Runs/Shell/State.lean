import Foreman.Number.Decimal
import Foreman.Runs.Execution
import Foreman.Runs.Shell.Syntax
import Foreman.System.Environment

namespace Foreman.Shell

structure State where
  -- the name that the script goes by
  name : Text
  arguments : List Text
  bindings : Table Text
  -- the variables that other programs get to see
  exported : NameSet
  -- the exit code of the command before
  status : Nat := 0
  execution : Execution

inductive Stop where
  | halted (halt : Halt)
  -- The loop around it ends, or goes on with its next round.
  | left (again : Bool)

abbrev Step := ExceptT Stop (StateM State)

namespace State

def searchPath : Text := "/usr/local/sbin:/usr/local/bin:/usr/sbin:/usr/bin:/sbin:/bin"

-- Variables that are there in any case. Those of the environment take precedence.
def defaults : List (Text × Text) :=
  [("IFS", " \t\n"), ("OPTIND", "1"), ("PATH", searchPath), ("PS1", "# "), ("PS2", "> "),
    ("PS4", "+ ")]

-- A variable is named by letters, digits and underscores, and does not start with a digit.
def isVariableName (name : Text) : Bool :=
  !name.isEmpty && !(name.head?.any Text.isDigit) &&
    name.all fun c => Text.isLetter c || Text.isDigit c || c == '_'

def start (name : Text) (arguments : List Text) (execution : Execution) : State :=
  let inherited := (Environment.ofStrings execution.environment).entries.filter fun e =>
    isVariableName e.1
  let directory : List (Text × Text) :=
    (execution.directory.map fun place => (("PWD" : Text), FileTree.pathOf place)).toList
  { name, arguments, execution
    bindings := Table.ofList (defaults ++ inherited ++ directory)
    exported := NameSet.ofList ((inherited ++ directory).map (·.1)) }

def setVariable (s : State) (name value : Text) : State :=
  { s with bindings := s.bindings.insert name value }

def unsetVariable (s : State) (name : Text) : State :=
  { s with bindings := s.bindings.erase name, exported := s.exported.erase name }

-- The number that a shell has of itself.
def ownNumber : Text := "2"

-- The value of a parameter: of one that counts or tells something, of an argument, or of a
-- variable.
def parameter? (s : State) (name : Text) : Option Text :=
  if name = "@" || name = "*" then
    if s.arguments.isEmpty then none else some (Text.join 32 s.arguments)
  else if name = "#" then some (Decimal.digits s.arguments.length)
  else if name = "?" then some (Decimal.digits s.status)
  else if name = "$" then some ownNumber
  else if name = "-" then some []
  else if name = "0" then some s.name
  else if name.all Text.isDigit && !name.isEmpty then s.arguments[Decimal.value name - 1]?
  else s.bindings.find? name

def environment (s : State) : List Text :=
  (s.bindings.entries.filter fun e => (s.exported.find? e.1).isSome).map fun e => e.1 ++ "=" ++ e.2

def blanks (s : State) : Text :=
  (s.bindings.find? "IFS").getD " \t\n"

end State

namespace Step

def halt {α : Type} (h : Halt) : Step α := throw (.halted h)

def exit {α : Type} (code : Nat) : Step α := halt (.ended (.exited (code % 256)))

def ofExec {α : Type} (body : Exec α) : Step α := do
  let s ← get
  let (result, execution) := body.run s.execution
  set { s with execution }
  match result with
  | .ok a => pure a
  | .error h => halt h

-- A complaint starts with the name of the script and the number of the line.
def complain (message : Text) : Step Unit := do
  let s ← get
  ofExec (Exec.complain (s.name ++ ": 1: " ++ message ++ "\n"))

-- A complaint that ends the shell.
def fatal {α : Type} (message : Text) : Step α := do
  complain message
  exit 2

end Step

end Foreman.Shell
