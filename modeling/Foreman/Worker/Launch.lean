import Foreman.Session.LogLevel
import Foreman.Worker.Isolation

namespace Foreman

structure LaunchSpec where
  baseName : Text
  role : Text
  protocol : Text
  executable : Text
  codePath : List Text := []
  sharedPackages : NameSet := ∅
  level : LogLevel := default
  -- in bytes, 0 for no bound
  minHeap : Nat := 0
  maxHeap : Nat := 0
  arguments : List Text := []
  directory : Text := []
  environment : Table Text := ∅
deriving DecidableEq

namespace LaunchSpec

def text (spec : LaunchSpec) : Text :=
  "WorkerProcessSpec(" ++ spec.baseName ++ "," ++ spec.executable ++ "," ++ spec.level.name ++ ")"

-- A list in one variable. Empty pieces in front leave no trace.
def joinFilled (sep : UInt8) (pieces : List Text) : Text :=
  Text.join sep (pieces.dropWhile List.isEmpty)

-- The variables that tell the worker what it was launched from.
def contract (spec : LaunchSpec) : List (Text × Text) :=
  let heap (name : Text) (size : Nat) : List (Text × Text) :=
    if size = 0 then [] else [(name, Size.writeBytes size)]
  let always : List (Text × Text) :=
    [("EXECORE_WORKER_NAME", spec.baseName),
      ("EXECORE_WORKER_ROLE", spec.role),
      ("EXECORE_WORKER_PROTOCOL", spec.protocol),
      ("EXECORE_CODE_PATH", joinFilled ':' spec.codePath),
      ("EXECORE_SHARED_PKGS", joinFilled ',' spec.sharedPackages.toList),
      ("EXECORE_LOG_LEVEL", spec.level.name)]
  always ++ heap "EXECORE_MIN_HEAP" spec.minHeap ++ heap "EXECORE_MAX_HEAP" spec.maxHeap

-- The variables override what the environment of the spec says about them.
def launchEnvironment (spec : LaunchSpec) : Table Text :=
  spec.environment.insertAll spec.contract

end LaunchSpec

end Foreman
