import Foreman.System.Program

namespace Foreman

inductive Stream where
  | input
  | output
  | errors
  -- the device that holds nothing and keeps nothing
  | nothing
deriving DecidableEq, Repr

structure Execution where
  arguments : List Text
  environment : List Text
  directory : Option Place
  heapLimit : Option Nat
  -- the descriptors that are open
  streams : List (Nat × Stream)
  -- the input not read yet
  input : Text
  -- whether no more input will come
  ended : Bool
  -- how many more pauses there is the time for
  pauses : Nat
  output : Text := []
  errors : Text := []

inductive Halt where
  -- it needs more input or more time
  | waiting
  | ended (ending : Ending)
deriving DecidableEq

-- A piece of a program.
abbrev Exec := ExceptT Halt (StateM Execution)

namespace Execution

def start (invocation : Invocation) (exposure : Exposure) : Execution where
  arguments := invocation.arguments
  environment := invocation.environment
  directory := invocation.directory
  heapLimit := invocation.heapLimit
  streams :=
    (if invocation.hasInput then [(0, Stream.input)] else []) ++
      (if invocation.hasOutput then [(1, Stream.output)] else []) ++
        (if invocation.hasErrors then [(2, Stream.errors)] else [])
  input := exposure.input
  ended := exposure.ended
  pauses := exposure.pauses

def stream? (e : Execution) (descriptor : Nat) : Option Stream :=
  e.streams.lookup descriptor

-- A descriptor that leads somewhere else from now on, or nowhere.
def connect (e : Execution) (descriptor : Nat) (stream : Option Stream) : Execution :=
  let others := e.streams.filter fun s => s.1 != descriptor
  { e with streams := (stream.map fun s => (descriptor, s)).toList ++ others }

def activity (halt : Halt) (e : Execution) : Activity :=
  match halt with
  | .waiting => ⟨e.output, e.errors, !(e.streams.any fun s => s.2 = .output), none⟩
  | .ended ending => ⟨e.output, e.errors, true, some ending⟩

end Execution

namespace Exec

def halt {α : Type} (h : Halt) : Exec α := throw h

-- Stands still until there is more input or more time.
def wait {α : Type} : Exec α := halt .waiting

def exit {α : Type} (code : Nat) : Exec α := halt (.ended (.exited (code % 256)))

def write (descriptor : Nat) (data : Text) : Exec Bool := do
  let e ← get
  match e.stream? descriptor with
  | none | some .input => pure false
  | some .nothing => pure true
  | some .output =>
    set { e with output := e.output ++ data }
    pure true
  | some .errors =>
    set { e with errors := e.errors ++ data }
    pure true

def complain (data : Text) : Exec Unit := do
  let _ ← write 2 data

-- The next line of the input and whether it is a whole one.
def readLine : Exec (Text × Bool) := do
  let e ← get
  match e.stream? 0 with
  | some .input =>
    let line := e.input.takeWhile fun (c : UInt8) => c != '\n'
    let rest := e.input.dropWhile fun (c : UInt8) => c != '\n'
    match rest with
    | _ :: rest => do
      set { e with input := rest }
      pure (line, true)
    | [] =>
      if e.ended then do
        set { e with input := [] }
        pure (line, false)
      else wait
  | _ => pure ([], false)

-- What is there of the input, and whether it is the last of it.
def readSome : Exec (Text × Bool) := do
  let e ← get
  match e.stream? 0 with
  | some .input =>
    set { e with input := [] }
    pure (e.input, e.ended)
  | _ => pure ([], true)

def pause : Exec Unit := do
  let e ← get
  match e.pauses with
  | 0 => wait
  | n + 1 => set { e with pauses := n }

-- The program that a piece makes, whose result is its exit code.
def program (body : Exec Nat) : Program := fun invocation exposure =>
  match (do exit (← body) : Exec Empty).run (.start invocation exposure) with
  | (.error halt, e) => e.activity halt
  | (.ok impossible, _) => nomatch impossible

end Exec

end Foreman
