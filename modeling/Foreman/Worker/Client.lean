import Foreman.Session.Act
import Foreman.System.Ending
import Foreman.Time.Date
import Foreman.Worker.Launch

namespace Foreman

structure BuildOp where
  id : Nat := 0
  description : Text := []
deriving DecidableEq

def BuildOp.text (op : BuildOp) : Text :=
  if op.id = 0 then "BuildOp()"
  else "BuildOp(" ++ Decimal.digits op.id ++ "," ++ op.description ++ ")"

-- The current build operation, and those that it hides for the time being.
structure Attribution where
  current : BuildOp := {}
  hidden : List BuildOp := []

namespace Attribution

def enter (a : Attribution) (op : BuildOp) : Attribution :=
  ⟨op, a.current :: a.hidden⟩

def leave (a : Attribution) : Attribution :=
  match a.hidden with
  | [] => a
  | op :: hidden => ⟨op, hidden⟩

end Attribution

-- How processes of type `π` are made and run. Their state is kept in `σ`.
structure Workshop (σ π : Type) where
  clock : Act σ Date
  -- a process that is not started yet, if there is one for the spec
  build : LaunchSpec → Act σ (Option π)
  start : π → Act σ π
  stop : π → Act σ Int
  -- gives a process up, started or not
  discard : π → Act σ Unit
  name : π → Text
  -- 0 for a process that does not run
  pid : π → Int

structure Client (π : Type) where
  spec : Isolation := {}
  process : Option π := none
  buildOp : BuildOp := {}

namespace Client

variable {σ π : Type}

def text (shop : Workshop σ π) (client : Client π) : Text :=
  let process : Text :=
    match client.process with
    | none => ""
    | some p => shop.name p ++ "," ++ Decimal.text (shop.pid p) ++ ","
  "WorkerDaemonClient(" ++ process ++ client.spec.text ++ ")"

def stop (shop : Workshop σ π) (client : Client π) : Act σ (Int × Client π) :=
  match client.process with
  | none => pure (0, client)
  | some p =>
    .within .worker "WorkerDaemonClient::stop" [shop.name p] do
      let status ← shop.stop p
      shop.discard p
      Act.note ["done", (Ending.ofStatus status).text]
      pure (status, { client with process := none })

-- A client that nobody holds any more stops its worker.
def drop (shop : Workshop σ π) (client : Client π) : Act σ Unit := do
  let _ ← client.stop shop

-- What is left of a client whose worker was taken over together with everything else. Only the
-- numbers stay.
def remains (client : Client π) : Client π where
  spec := { minHeap := client.spec.minHeap, maxHeap := client.spec.maxHeap }
  process := none
  buildOp := { id := client.buildOp.id }

-- The client takes over from another one. The process that it held until then is given up.
def takeOver (shop : Workshop σ π) (client other : Client π) : Act σ (Client π × Client π) := do
  match client.process with
  | none => pure ()
  | some p => shop.discard p
  pure (other, other.remains)

def release (shop : Workshop σ π) (client : Client π) : Act σ (Client π) := do
  client.drop shop
  pure client.remains

end Client

structure Launcher where
  -- the level that the workers report at
  level : LogLevel := default

namespace Launcher

def baseName : Text := "worker daemon"

def role : Text := "worker_daemon_process"

def protocol : Text := "worker_daemon_protocol"

def noEntryPoint : Failure := .invalidArgument "worker entry point cannot be unset"

def nothingBuilt (entryPoint : Text) : Failure :=
  .ofKind .workerStartFailure ("no worker process could be built for " ++ entryPoint)

-- The level is that of the launcher. A directory that is given takes precedence.
def launchSpec (launcher : Launcher) (entryPoint directory : Text) (spec : Isolation) :
    LaunchSpec where
  baseName := baseName
  role := role
  protocol := protocol
  executable := entryPoint
  codePath := spec.codePath
  sharedPackages := spec.sharedPackages
  level := launcher.level
  minHeap := spec.minHeap
  maxHeap := spec.maxHeap
  arguments := spec.arguments
  directory := if directory.isEmpty then spec.directory else directory.withSlash
  environment := spec.environment

variable {σ π : Type}

def startOrDiscard (shop : Workshop σ π) (p : π) : Act σ π :=
  (shop.start p).orElse fun e => do
    shop.discard p
    Act.fail e

def startDaemon (launcher : Launcher) (shop : Workshop σ π) (op : BuildOp)
    (entryPoint directory : Text) (spec : Isolation) : Act σ (Client π) :=
  .within .worker "start_daemon" [entryPoint, directory] do
    if entryPoint.isEmpty then Act.fail noEntryPoint
    Act.ofExcept spec.check
    match ← shop.build (launcher.launchSpec entryPoint directory spec) with
    | none => Act.fail (nothingBuilt entryPoint)
    | some p =>
      Act.report .info ("starting " ++ baseName ++ " process with isolation spec " ++ spec.text)
      let before ← shop.clock
      let p ← startOrDiscard shop p
      let elapsed := (← shop.clock).since before
      Act.report .info
        ("started " ++ baseName ++ " process " ++ shop.name p ++ " (" ++ elapsed.short ++
          ") with isolation spec " ++ spec.text)
      Act.note ["started", shop.name p, Decimal.text (shop.pid p), elapsed.print]
      pure ⟨spec, some p, op⟩

end Launcher

end Foreman
