import Foreman.System.Child
import Foreman.System.Search
import Foreman.Worker.Client

namespace Foreman

-- Where workers run: the parent of their processes, and the processes themselves by their numbers.
structure Yard where
  parent : Parent
  built : Nat := 0
  started : Nat := 0
  running : List (Nat × Child) := []
  -- what those wrote to the standard error that do not run any more
  errors : Text := []
  -- how many pauses of a process are waited for
  patience : Nat := Child.patience

namespace Yard

def child? (yard : Yard) (number : Nat) : Option Child :=
  yard.running.lookup number

def remove (yard : Yard) (number : Nat) : Yard :=
  { yard with running := yard.running.filter fun e => e.1 != number }

def update (yard : Yard) (number : Nat) (child : Child) : Yard :=
  { yard with running := (number, child) :: (yard.remove number).running }

-- A child that runs from now on, and its number. Number 1 is the first one of all.
def take (yard : Yard) (child : Child) : Nat × Yard :=
  let number := yard.started + 2
  (number, { yard with started := yard.started + 1, running := (number, child) :: yard.running })

end Yard

structure ChildWorker where
  spec : LaunchSpec
  name : Text
  number : Option Nat := none

namespace ChildWorker

def readyWord : Text := "ready"

def isReady (line : Option Text) : Bool :=
  line.any readyWord.isPrefixOf

def notFound (worker : ChildWorker) : Failure :=
  .ofKind .workerStartFailure
    ("cannot find worker executable " ++ worker.spec.executable ++ " for " ++ worker.name)

def notReady (worker : ChildWorker) (line : Option Text) (ending : Ending) : Failure :=
  let said : Text :=
    match line with
    | none => ""
    | some line => ", got '" ++ line ++ "' instead of " ++ readyWord
  .ofKind .workerStartFailure
    (worker.name ++ " did not become ready" ++ said ++ " : " ++ ending.text)

-- Names count all workers, those that never start included.
def build (spec : LaunchSpec) : Act Yard (Option ChildWorker) := do
  Act.modify fun yard => { yard with built := yard.built + 1 }
  let yard ← Act.get
  pure (some { spec, name := spec.baseName ++ " " ++ Decimal.digits yard.built })

-- What a worker finds in its environment. What it is launched with overrides what is inherited.
def environment (inherited : Environment) (spec : LaunchSpec) : Environment :=
  (Environment.ofStrings inherited.strings).insertAll spec.launchEnvironment.entries

def heapLimit (spec : LaunchSpec) : Option Nat :=
  if spec.maxHeap = 0 || Nat.pow 2 64 - 1 ≤ spec.maxHeap then none else some spec.maxHeap

-- How the process of a worker is started, given the path of its executable.
def childSpec (worker : ChildWorker) (inherited : Environment) (path : Text) : ChildSpec where
  command := path :: worker.spec.arguments
  environment := some (environment inherited worker.spec)
  directory := worker.spec.directory
  heapLimit := heapLimit worker.spec

def kill (number : Nat) : Act Yard Ending := do
  match (← Act.get).child? number with
  | none => pure (.signaled Signal.kill)
  | some child =>
    Act.modify fun yard =>
      { yard.remove number with errors := yard.errors ++ child.activity.errors }
    pure child.kill

-- Starts the process and waits for the first line. That the system refuses a process, or that its
-- output cannot be read, is left out.
def start (worker : ChildWorker) : Act Yard ChildWorker :=
  .within .worker "ChildWorkerProcess::start" [worker.name] do
    let yard ← Act.get
    let parent := yard.parent
    match findExecutable parent.tree parent.directory (parent.environment.find? "PATH")
        worker.spec.executable with
    | none => Act.fail worker.notFound
    | some path =>
      let spec := worker.childSpec parent.environment path
      Act.note ["spawn", Text.showList spec.command]
      let (line, child) := (Child.spawn parent spec).readLineWithin yard.patience
      let (number, yard) := yard.take child
      Act.modify fun _ => yard
      if isReady line then
        Act.note ["ready", Decimal.digits number]
        pure { worker with number := some number }
      else
        let ending ← kill number
        Act.note ["not_ready", Text.showOption line, ending.text]
        Act.fail (worker.notReady line ending)

def stop (worker : ChildWorker) : Act Yard Int :=
  let number := worker.number.getD 0
  .within .worker "ChildWorkerProcess::stop" [worker.name, Decimal.digits number] do
    match worker.number with
    | none => pure 0
    | some number =>
      let yard ← Act.get
      if (yard.child? number).isNone then pure 0 else pure (← kill number).status

def discard (worker : ChildWorker) : Act Yard Unit :=
  match worker.number with
  | none => pure ()
  | some number => do
    let _ ← kill number

def workshop : Workshop Yard ChildWorker where
  clock := pure ⟨1⟩
  build := build
  start := start
  stop := stop
  discard := discard
  name worker := worker.name
  pid worker := worker.number.getD 0

def request (worker : ChildWorker) (line : Text) : Act Yard Unit :=
  Act.modify fun yard =>
    match worker.number.bind fun number => (yard.child? number).map (number, ·) with
    | none => yard
    | some (number, child) => yard.update number (child.send (line ++ "\n"))

def response (worker : ChildWorker) : Act Yard (Option Text) := do
  let yard ← Act.get
  match worker.number.bind fun number => (yard.child? number).map (number, ·) with
  | none => pure none
  | some (number, child) =>
    let (line, child) := child.readLineWithin yard.patience
    Act.modify fun yard => yard.update number child
    pure line

end ChildWorker

end Foreman
