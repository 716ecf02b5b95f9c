import Foreman.Number.Decimal
import Foreman.System.Environment
import Foreman.System.Program
import Foreman.System.Source
import Foreman.Text.Path

namespace Foreman

-- Where children come from: the files and programs of the machine, and what the parent passes on.
structure Parent where
  tree : FileTree
  programAt : Place → Program
  directory : Place
  environment : Environment

structure ChildSpec where
  -- the path of the program, and its arguments
  command : List Text
  -- in place of the environment of the parent
  environment : Option Environment := none
  -- in addition to it
  addition : Environment := ∅
  -- a directory to change to, if not empty
  directory : Text := []
  -- what becomes of the preparation by the parent, 0 if all is well
  preparation : Int := 0
  heapLimit : Option Nat := none
  -- standard descriptors that the child has
  hasInput : Bool := true
  hasOutput : Bool := true
  hasErrors : Bool := true

namespace ChildSpec

inductive Obstacle where
  | directory
  | preparation
  | execution
deriving DecidableEq, Repr

namespace Obstacle

def message : Obstacle → Text
  | directory => "cannot chdir"
  | preparation => "cannot setup child"
  | execution => "cannot exec"

def code : Obstacle → Nat
  | preparation => 1
  | _ => 2

end Obstacle

def shortened (argument : Text) : Text :=
  if argument.length ≤ 100 then argument else argument.take 97 ++ "..."

-- Arguments and variables end at their first NUL byte.
def arguments (spec : ChildSpec) : List Text :=
  spec.command.map Text.untilNul

def strings (spec : ChildSpec) (parent : Parent) : List Text :=
  (spec.environment.getD parent.environment).strings ++ spec.addition.strings

def failed (spec : ChildSpec) (obstacle : Obstacle) : Program := fun invocation _ =>
  let words := spec.arguments.flatMap fun argument => 32 :: shortened argument
  if invocation.hasErrors then .exited obstacle.code [] (obstacle.message ++ " :" ++ words ++ "\n")
  else .exited 2 [] []

-- Where the child runs, and the program that it executes.
def target (spec : ChildSpec) (parent : Parent) : Except Obstacle (Place × Place) := do
  let directory ←
    if spec.directory.isEmpty then pure parent.directory
    else (parent.tree.enter parent.directory spec.directory.noSlash).mapError fun _ => .directory
  if spec.preparation ≠ 0 then throw .preparation
  let program ←
    (parent.tree.program directory (spec.arguments.headD [])).mapError fun _ => .execution
  pure (directory, program)

end ChildSpec

-- A child that was started, with what it was sent and what was taken of its output.
structure Child where
  program : Program
  invocation : Invocation
  exposure : Exposure := { ended := false }
  taken : Nat := 0

namespace Child

-- The system always has a process and its pipes to give: that there is none is left out here.
def spawn (parent : Parent) (spec : ChildSpec) : Child :=
  let invocation : Invocation :=
    { arguments := spec.arguments
      environment := spec.strings parent
      heapLimit := spec.heapLimit
      hasInput := spec.hasInput
      hasOutput := spec.hasOutput
      hasErrors := spec.hasErrors }
  match spec.target parent with
  | .error obstacle => { program := spec.failed obstacle, invocation }
  | .ok (directory, place) =>
    { program := parent.programAt place
      invocation := { invocation with directory := some directory } }

def activity (child : Child) : Activity :=
  child.program child.invocation child.exposure

def send (child : Child) (data : Text) : Child :=
  { child with exposure := { child.exposure with input := child.exposure.input ++ data } }

def closeInput (child : Child) : Child :=
  { child with exposure := { child.exposure with ended := true } }

def later (child : Child) (pauses : Nat) : Child :=
  { child with exposure := { child.exposure with pauses := child.exposure.pauses + pauses } }

def patience : Nat := 1000

-- The next line of the output, or nothing at its end. A child that has none yet is given time, and
-- one that has none after all that time is taken for one that is silent.
def readLineWithin : (patience : Nat) → Child → Option Text × Child
  | 0, child => (none, child)
  | patience + 1, child =>
    let activity := child.activity
    let new := activity.output.drop child.taken
    if activity.silent || new.contains '\n' then
      let (line, after) := Source.readLine ⟨new, []⟩
      (line, { child with taken := child.taken + (new.length - after.rest.length) })
    else readLineWithin patience (child.later 1)

-- How a child ends that a signal reaches, which comes too late if it has ended already. Not every
-- signal ends it.
def endingBy (child : Child) (signal : Nat) : Option Ending :=
  child.activity.ending.orElse fun _ => (Signal.effect signal).map .signaled

def kill (child : Child) : Ending :=
  (child.endingBy Signal.kill).getD (.signaled Signal.kill)

def complete (child : Child) : Activity :=
  (child.later patience).activity

-- What a child has done if a signal reaches it at once, before any pause is over.
def completeAfter (child : Child) (signal : Int) : Activity :=
  match if Signal.isValid signal then child.endingBy signal.toNat else none with
  | none => child.complete
  | some ending => { child.activity with ending := some ending }

end Child

end Foreman
