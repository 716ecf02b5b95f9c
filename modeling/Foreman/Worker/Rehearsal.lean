import Foreman.Worker.Client

namespace Foreman

inductive Fate where
  | missing
  | failing (e : Failure)
  | starting
deriving DecidableEq

structure Part where
  name : Text
  pid : Int := 1
  status : Int := 0
  fate : Fate := .starting
deriving DecidableEq

inductive Request where
  | build (spec : LaunchSpec)
  | start (name : Text)
  | stop (name : Text)
  | discard (name : Text)
deriving DecidableEq

structure Actor where
  part : Part
  started : Bool
deriving DecidableEq

structure Rehearsal where
  next : Part
  requests : List Request := []

namespace Rehearsal

def specs (stage : Rehearsal) : List LaunchSpec :=
  stage.requests.filterMap fun r =>
    match r with
    | .build spec => some spec
    | _ => none

def story (stage : Rehearsal) : List Text :=
  stage.requests.filterMap fun r =>
    match r with
    | .build spec => some ("new " ++ spec.executable)
    | .start name => some ("start " ++ name)
    | .stop name => some ("stop " ++ name)
    | .discard _ => none

def request (r : Request) : Act Rehearsal Unit :=
  Act.modify fun stage => { stage with requests := stage.requests ++ [r] }

def build (spec : LaunchSpec) : Act Rehearsal (Option Actor) := do
  request (.build spec)
  let stage ← Act.get
  pure (if stage.next.fate = .missing then none else some ⟨stage.next, false⟩)

def start (actor : Actor) : Act Rehearsal Actor := do
  request (.start actor.part.name)
  match actor.part.fate with
  | .failing e => Act.fail e
  | _ => pure { actor with started := true }

def stop (actor : Actor) : Act Rehearsal Int := do
  request (.stop actor.part.name)
  pure actor.part.status

-- Time stands still.
def workshop : Workshop Rehearsal Actor where
  clock := pure ⟨1⟩
  build := build
  start := start
  stop := stop
  discard actor := request (.discard actor.part.name)
  name actor := actor.part.name
  pid actor := if actor.started then actor.part.pid else 0

end Rehearsal

end Foreman
