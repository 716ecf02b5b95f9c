import Foreman.Runs.Checks.Basic
import Foreman.Runs.Echo
import Foreman.Runs.Installed
import Foreman.Worker.ChildWorker
import Foreman.Worker.Rehearsal

namespace Foreman.Checks

open Check

def entryPoint : Text := "my_worker"

def player : Part := { name := "fake" }

def rehearsed (part : Part) (body : Act Rehearsal Unit) : Act Unit Unit :=
  having { next := part } body

def begin (launcher : Launcher) (op : BuildOp) (directory : Text) (spec : Isolation) :
    Act Rehearsal (Client Actor) :=
  launcher.startDaemon Rehearsal.workshop op entryPoint directory spec

-- A worker that is let go as soon as it is started.
def beginAndDrop (launcher : Launcher) (directory : Text) (spec : Isolation) :
    Act Rehearsal Unit := do
  (← begin launcher {} directory spec).drop Rehearsal.workshop

def fullSpec : Isolation where
  codePath := ["/opt/a", "/opt/b"]
  sharedPackages := NameSet.ofList ["org.example"]
  minHeap := Nat.pow 2 20
  maxHeap := Nat.pow 2 30
  arguments := ["-v"]
  directory := "/tmp/"
  environment := Table.ofList [("FOO", "bar")]

def fullEnvironment : Environment :=
  Table.ofList
    [("EXECORE_WORKER_NAME", "worker daemon"), ("EXECORE_WORKER_ROLE", "worker_daemon_process"),
      ("EXECORE_WORKER_PROTOCOL", "worker_daemon_protocol"), ("EXECORE_CODE_PATH", "/opt/a:/opt/b"),
      ("EXECORE_SHARED_PKGS", "org.example"), ("EXECORE_LOG_LEVEL", "debug"),
      ("EXECORE_MIN_HEAP", "1M"), ("EXECORE_MAX_HEAP", "1G"), ("FOO", "bar")]

def describedRight (spec : LaunchSpec) : Bool :=
  spec.baseName == "worker daemon" && spec.role == "worker_daemon_process" &&
    spec.protocol == "worker_daemon_protocol" && spec.executable == entryPoint &&
    spec.level == .debug && spec.codePath == fullSpec.codePath &&
    spec.sharedPackages == fullSpec.sharedPackages && spec.minHeap == fullSpec.minHeap &&
    spec.maxHeap == fullSpec.maxHeap && spec.arguments == fullSpec.arguments &&
    spec.environment == fullSpec.environment && spec.directory == "/tmp/"

def rehearsedChecks : List Check :=
  [ ⟨"process_descriptor", rehearsed player do
      let launcher : Launcher := ⟨.debug⟩
      let client ← begin launcher {} [] fullSpec
      expect (client.process.isSome && client.spec == fullSpec)
      let specs := (← Act.get).specs
      expect (specs.length == 1 && specs.all describedRight)
      expect (specs.all fun spec => spec.launchEnvironment == fullEnvironment)
      beginAndDrop launcher "/var" fullSpec
      expect ((← Act.get).specs.map LaunchSpec.directory == ["/tmp/", "/var/"].map Text.ofString)
      client.drop Rehearsal.workshop⟩,
    ⟨"bad_arguments", rehearsed player do
      let launcher : Launcher := {}
      let _ ← expectFailure .invalidArgument
        (launcher.startDaemon Rehearsal.workshop {} [] [] {})
      let spec : Isolation := { sharedPackages := NameSet.ofList ["not a package"] }
      let _ ← expectFailure .invalidArgument (begin launcher {} [] spec)
      expect (← Act.get).specs.isEmpty⟩,
    ⟨"factory_failures", do
      rehearsed { player with fate := .missing } do
        let _ ← expectFailure .workerStartFailure (begin {} {} [] {})
      let failure : Failure := .ofKind .workerStartFailure "fake failure"
      rehearsed { player with fate := .failing failure } do
        let message ← expectFailure .workerStartFailure (begin {} {} [] {})
        expect (message == failure.message)⟩,
    ⟨"build_op_attribution", rehearsed player do
      let outside : Attribution := {}
      let client ← begin {} outside.current [] {}
      expect (client.buildOp == {})
      client.drop Rehearsal.workshop
      let inside := outside.enter ⟨42, "compile foo"⟩
      let client ← begin {} inside.current [] {}
      expect (client.buildOp == ⟨42, "compile foo"⟩)
      client.drop Rehearsal.workshop
      expect (inside.leave.current == {})⟩,
    ⟨"start_is_reported", rehearsed player do
      let text ← shown .info (beginAndDrop {} [] {})
      expect (occurs "starting worker daemon process with isolation spec" text)
      expect (occurs "started worker daemon process fake (" text)⟩ ]

def echoPath : Text := "/echo_worker"

def echoPlace : Place := ["echo_worker"]

def yard : Yard where
  parent :=
    { tree := Machine.tree.add echoPlace (.file true)
      programAt := fun place =>
        if place = echoPlace then EchoWorker.program else Machine.programAt place
      directory := []
      environment := ∅ }

abbrev Worker := Client ChildWorker

def launch (op : BuildOp) (path directory : Text) (spec : Isolation) : Act Yard Worker :=
  Launcher.startDaemon {} ChildWorker.workshop op path directory spec

def answers (client : Worker) (request expected : Text) : Act Yard Unit := do
  match client.process with
  | none => Act.fail (.plain "no process")
  | some worker =>
    worker.request request
    expect ((← worker.response) == some expected)

def childSpec : Isolation where
  codePath := ["/opt/a"]
  maxHeap := Nat.pow 2 30
  arguments := ["a1", "a2"]
  directory := "/tmp/"
  environment := Table.ofList [("FOO", "bar")]

def notLaunched (path directory : Text) (spec : Isolation) : Act Yard Text :=
  expectFailure .workerStartFailure (launch {} path directory spec)

def indexed (i : Nat) : Isolation :=
  { environment := Table.ofList [("IDX", Decimal.digits i)] }

def yardChecks : List (Text × Act Yard Unit) :=
  [ ("child_worker", do
      let client ← launch {} echoPath "/" childSpec
      expect (client.process.isSome && client.spec == childSpec)
      expect (client.process.all fun worker =>
        worker.number.isSome && ("worker daemon " : Text).isPrefixOf worker.name)
      answers client "hello" "hello"
      answers client "env FOO" "bar"
      answers client "env EXECORE_WORKER_ROLE" "worker_daemon_process"
      answers client "env EXECORE_CODE_PATH" "/opt/a"
      answers client "env EXECORE_LOG_LEVEL" "lifecycle"
      answers client "cwd" "/"
      answers client "args" "a1 a2"
      answers client "heap" "1G"
      let (_, client) ← client.stop ChildWorker.workshop
      expect client.process.isNone
      expect ((← client.stop ChildWorker.workshop).1 == 0)),
    ("child_worker_failures", do
      let _ ← notLaunched "/nonexistent/worker" [] {}
      expect (occurs "not ready" (← notLaunched echoPath [] { arguments := ["--no-ready"] }))
      let _ ← notLaunched echoPath "/nonexistent/dir" {}),
    ("concurrent_starts", do
      let numbers := List.range 4
      let clients ← numbers.mapM fun i => launch ⟨i + 1, "concurrent"⟩ echoPath [] (indexed i)
      (clients.zip numbers).forM fun (client, i) => do
        expect (client.process.isSome && client.buildOp.id == i + 1)
        expect (client.spec == indexed i)
        answers client "env IDX" (Decimal.digits i)
        answers client ("ping " ++ Decimal.digits i) ("ping " ++ Decimal.digits i)
      let workers := clients.filterMap Client.process
      expect (workers.map ChildWorker.number).Nodup
      expect (workers.map ChildWorker.name).Nodup
      clients.forM fun client => client.drop ChildWorker.workshop) ]

-- Each check has a yard of its own, in which the workers of those before are counted too.
def inYards : (built : Nat) → List (Text × Act Yard Unit) → List Check
  | _, [] => []
  | built, (name, body) :: rest =>
    let start := { yard with built }
    ⟨name, having start body⟩ :: inYards (body start).state.built rest

def launching : Suite where
  checks := rehearsedChecks ++ inYards 0 yardChecks

-- What the processes of the checks write to the standard error.
def launchingErrors : Text :=
  yardChecks.flatMap fun (_, body) => (body yard).state.errors

end Foreman.Checks
