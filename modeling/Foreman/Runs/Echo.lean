import Foreman.Number.Size
import Foreman.Runs.Shell.Tools

namespace Foreman.EchoWorker

-- The value of a variable, the first one of that name.
def value? (e : Execution) (name : Text) : Option Text :=
  let head := name.untilNul ++ "="
  (e.environment.find? head.isPrefixOf).map (·.drop head.length)

def lookup : Text := "env "

def reply (e : Execution) (request : Text) : Text :=
  if lookup.isPrefixOf request then (value? e (request.drop lookup.length)).getD "<unset>"
  else if request = "cwd" then (e.directory.map FileTree.pathOf).getD "<unknown>"
  else if request = "args" then Text.join 32 e.arguments.tail
  else if request = "heap" then
    match e.heapLimit with
    | none => "unlimited"
    | some n => Size.write .one n
  else request

def greeting : Text := "ready\n"

-- Answers requests until there are no more. A last line need not be a whole one.
def serve : (fuel : Nat) → Exec Nat
  | 0 => Exec.wait
  | fuel + 1 => do
    let (request, whole) ← Exec.readLine
    if !whole && request.isEmpty then pure 0
    else
      let _ ← Exec.write 1 (reply (← get) request ++ "\n")
      serve fuel

-- With the option not to, it is never ready.
def program : Program := Exec.program do
  let e ← get
  if e.arguments[1]? = some ("--no-ready" : Text) then
    let _ ← Exec.write 1 "not ready\n"
    pure 3
  else
    let _ ← Exec.write 1 greeting
    serve (e.input.length + 2)

end Foreman.EchoWorker
