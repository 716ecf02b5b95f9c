import Foreman.Enumeration.Basic

namespace Foreman

inductive FailureKind where
  -- unset or malformed input
  | invalidArgument
  -- no factory is registered for a configuration type
  | backendNotFound
  -- the remote tier is used before its type is chosen
  | remoteNotConfigured
  -- a configuration object could not be made
  | constructionFailure
  -- a worker process could not be made or did not become ready
  | workerStartFailure
deriving DecidableEq, Repr

instance : Enumeration FailureKind where
  typeName := "Err"
  values := [.invalidArgument, .backendNotFound, .remoteNotConfigured, .constructionFailure,
    .workerStartFailure]
  number
    | .invalidArgument => 0
    | .backendNotFound => 1
    | .remoteNotConfigured => 2
    | .constructionFailure => 3
    | .workerStartFailure => 4
  camel
    | .invalidArgument => "InvalidArgument"
    | .backendNotFound => "BackendNotFound"
    | .remoteNotConfigured => "RemoteNotConfigured"
    | .constructionFailure => "ConstructionFailure"
    | .workerStartFailure => "WorkerStartFailure"

inductive ExitCode where
  | ok
  | fail
  | system
  | usage
deriving DecidableEq, Repr

instance : Enumeration ExitCode where
  typeName := "Rc"
  values := [.ok, .fail, .system, .usage]
  number
    | .ok => 0
    | .fail => 1
    | .system => 2
    | .usage => 3
  camel
    | .ok => "Ok"
    | .fail => "Fail"
    | .system => "System"
    | .usage => "Usage"

-- A failure of a known kind, or a bare message from a place that leaves the kind to its caller.
inductive Failure where
  | ofKind (kind : FailureKind) (message : Text)
  | plain (message : Text)
deriving DecidableEq

namespace Failure

def message : Failure → Text
  | ofKind _ message => message
  | plain message => message

def invalidArgument (message : Text) : Failure := .ofKind .invalidArgument message

end Failure

end Foreman
