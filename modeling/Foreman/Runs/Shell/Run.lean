import Foreman.Runs.Shell.Builtins
import Foreman.Runs.Shell.Expansion
import Foreman.Runs.Shell.Parser
import Foreman.Runs.Shell.Tools
import Foreman.System.Search

namespace Foreman.Shell

open Step

-- Changes where descriptors lead. A descriptor that is not open cannot be duplicated.
def redirect : List Redirection → Step Bool
  | [] => pure true
  | r :: rs => do
    let s ← get
    let e := s.execution
    match r with
    | .close d =>
      set { s with execution := e.connect d none }
      redirect rs
    | .nothing d =>
      set { s with execution := e.connect d (some .nothing) }
      redirect rs
    | .duplicate d source =>
      match e.stream? source with
      | none => do
        complain (Decimal.digits source ++ ": " ++ SystemError.badDescriptor.text)
        pure false
      | some stream => do
        set { s with execution := e.connect d (some stream) }
        redirect rs

-- A step after which descriptors lead where they led before.
def withRedirections (rs : List Redirection) (step : Step Nat) : Step Nat := do
  let streams := (← get).execution.streams
  let code ← if ← redirect rs then step else pure 2
  modify fun s => { s with execution := { s.execution with streams } }
  pure code

def setStatus (code : Nat) : Step Unit :=
  modify fun s => { s with status := code }

inductive Found where
  | tool (body : Exec Nat)
  | shell
  | refused (code : Nat) (message : Text)

def locate (s : State) (name : Text) : Found :=
  let directory := s.execution.directory.getD []
  match findExecutable Machine.tree directory (s.bindings.find? "PATH") name with
  | none =>
    if name.contains '/' && (Machine.tree.resolve directory name).toOption.isSome then
      .refused 126 (name ++ ": " ++ SystemError.notPermitted.text)
    else .refused 127 (name ++ ": not found")
  | some path =>
    match Machine.tree.program directory path with
    | .error e => .refused 126 (name ++ ": " ++ e.text)
    | .ok place =>
      let last := place.getLastD []
      if last = "sh" then .shell
      else
        match Tools.named last with
        | some body => .tool body
        | none => .refused 127 (name ++ ": not found")

-- Another program runs with its own arguments, and with the exported variables.
def runTool (body : Exec Nat) (arguments : List Text) : Step Nat := do
  let s ← get
  let before := s.execution
  let (result, after) := body.run { before with arguments, environment := s.environment }
  set { s with
    execution := { after with
      arguments := before.arguments
      environment := before.environment
      streams := before.streams } }
  match result with
  | .ok code => pure code
  | .error .waiting => halt .waiting
  | .error (.ended (.exited code)) => pure code
  | .error (.ended (.signaled signal)) => pure (128 + signal)
  | .error (.ended .other) => pure 1

-- A step in a shell of its own: nothing lasts but what was read and written.
def inside (step : Step Nat) : Step Nat := fun before => do
  let (result, after) := step.run before
  let kept : State :=
    { before with
      execution := { after.execution with
        streams := before.execution.streams
        directory := before.execution.directory } }
  match result with
  | .ok code => (.ok code, kept)
  | .error (.halted .waiting) => (.error (.halted .waiting), kept)
  | .error (.halted (.ended (.exited code))) => (.ok code, kept)
  | .error (.halted (.ended (.signaled signal))) => (.ok (128 + signal), kept)
  | .error (.halted (.ended .other)) | .error (.left _) => (.ok 0, kept)

-- Variables that hold only for one command.
def withAssignments (assignments : List (Text × Text)) (step : Step Nat) : Step Nat := do
  let before ← get
  modify fun s =>
    assignments.foldl
      (fun s e => { s.setVariable e.1 e.2 with exported := s.exported.insert e.1 () }) s
  let code ← step
  modify fun s =>
    assignments.foldl
      (fun s e =>
        match before.bindings.find? e.1 with
        | some value =>
          let s := s.setVariable e.1 value
          if (before.exported.find? e.1).isSome then s
          else { s with exported := s.exported.erase e.1 }
        | none => s.unsetVariable e.1)
      s
  pure code

-- Arguments of a shell that runs a script given to it: the script, its name and its arguments.
def invocation (arguments : List Text) : Option (Text × Text × List Text) :=
  match arguments with
  | name :: option :: script :: rest =>
    if option = "-c" then some (script, rest.headD name, rest.tail) else none
  | _ => none

mutual

-- Runs a command, whose exit code becomes the status.
def run : (fuel : Nat) → Command → Step Unit
  | 0, _ => halt .waiting
  | fuel + 1, .simple assignments words rs => do
    let fields ← expandFields words
    let values ← assignments.mapM fun (name, word) => do
      let value ← expandText word
      pure (name, value)
    match fields with
    | name :: arguments => setStatus (← call fuel values rs name arguments)
    | [] =>
      modify fun s => values.foldl (fun s e => s.setVariable e.1 e.2) s
      if words.isEmpty && assignments.isEmpty && rs.isEmpty then pure ()
      else setStatus (← withRedirections rs (pure 0))
  | fuel + 1, .sequence first second => do
    run fuel first
    run fuel second
  | fuel + 1, .conditional onSuccess first second => do
    run fuel first
    if ((← get).status == 0) = onSuccess then run fuel second
  | fuel + 1, .negation command => do
    run fuel command
    setStatus (if (← get).status = 0 then 1 else 0)
  | fuel + 1, .loop whileFailing condition body => runLoop fuel whileFailing condition body 0
  | fuel + 1, .choice condition yes no => do
    run fuel condition
    if (← get).status = 0 then run fuel yes
    else
      match no with
      | some no => run fuel no
      | none => setStatus 0
  | fuel + 1, .select word arms => do
    runArms fuel (← expandText word) arms
  | fuel + 1, .each name words body => do
    let values ←
      match words with
      | some words => expandFields words
      | none => do pure (← get).arguments
    setStatus 0
    runEach fuel name values body
  | fuel + 1, .group isInside command rs => do
    let body : Step Nat := do
      run fuel command
      pure (← get).status
    setStatus (← withRedirections rs (if isInside then inside body else body))

-- Runs a body of a loop, and tells whether the loop goes on.
def runBody : (fuel : Nat) → Command → Step Bool
  | 0, _ => halt .waiting
  | fuel + 1, body => do
    try
      run fuel body
      pure true
    catch
      | .left again => do
        setStatus 0
        pure again
      | stop => throw stop

-- `last` is the status of the last round.
def runLoop : (fuel : Nat) → (whileFailing : Bool) → (condition body : Command) → (last : Nat) →
    Step Unit
  | 0, _, _, _, _ => halt .waiting
  | fuel + 1, whileFailing, condition, body, last => do
    run fuel condition
    if ((← get).status != 0) = whileFailing then
      if ← runBody fuel body then
        runLoop fuel whileFailing condition body (← get).status
    else setStatus last

def runEach : (fuel : Nat) → (name : Text) → (values : List Text) → (body : Command) → Step Unit
  | 0, _, _, _ => halt .waiting
  | _, _, [], _ => pure ()
  | fuel + 1, name, value :: values, body => do
    modify fun s => s.setVariable name value
    if ← runBody fuel body then runEach fuel name values body

def runArms : (fuel : Nat) → (t : Text) → List (List Word × Command) → Step Unit
  | 0, _, _ => halt .waiting
  | _, _, [] => setStatus 0
  | fuel + 1, t, (words, body) :: arms => do
    let patterns ← words.mapM expandPattern
    if patterns.any fun p => p.fits t then run fuel body else runArms fuel t arms

def call : (fuel : Nat) → List (Text × Text) → List Redirection → (name : Text) →
    (arguments : List Text) → Step Nat
  | 0, _, _, _, _ => halt .waiting
  | fuel + 1, values, rs, name, arguments => do
    if name = "exec" then
      if !(← redirect rs) then exit 2
      else
        match arguments with
        | [] => pure 0
        | command :: more => do
          match locate (← get) command with
          | .refused code message => do
            complain ("exec: " ++ message)
            exit code
          | _ => exit (← withAssignments values (external fuel command more))
    else
      withRedirections rs (withAssignments values
        (if name = "eval" then runText fuel (Text.join 32 arguments)
        else
          match Builtins.named name with
          | some builtin => builtin arguments
          | none => external fuel name arguments))

def external : (fuel : Nat) → (name : Text) → (arguments : List Text) → Step Nat
  | 0, _, _ => halt .waiting
  | fuel + 1, name, arguments => do
    match locate (← get) name with
    | .refused code message => do
      complain message
      pure code
    | .tool body => runTool body (name :: arguments)
    | .shell =>
      match invocation (name :: arguments) with
      | none => pure 0
      | some (script, name, arguments) =>
        inside do
          modify fun s =>
            State.start name arguments { s.execution with environment := s.environment }
          runText fuel script

def runText : (fuel : Nat) → (script : Text) → Step Nat
  | 0, _ => halt .waiting
  | fuel + 1, script => do
    match Command.ofText? script with
    | none => fatal "Syntax error"
    | some command => do
      run fuel command
      pure (← get).status

end

def depth (script : Text) (e : Execution) : Nat :=
  8 * (script.length + e.input.length + e.pauses) + 1000

-- The shell runs the script that its arguments give.
def program : Program := Exec.program do
  let e ← get
  match invocation e.arguments with
  | none => pure 0
  | some (script, name, arguments) =>
    let (result, s) := (runText (depth script e) script).run (.start name arguments e)
    set s.execution
    match result with
    | .ok code => pure code
    | .error (.halted halt) => Exec.halt halt
    | .error (.left _) => pure 0

end Foreman.Shell
