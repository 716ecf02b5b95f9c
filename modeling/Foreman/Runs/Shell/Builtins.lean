import Foreman.Runs.Machine
import Foreman.Runs.Shell.Escape
import Foreman.Runs.Shell.State

namespace Foreman.Shell.Builtins

open Step

abbrev Builtin := List Text → Step Nat

def misused (command : Text) (message : Text) (code : Nat) : Step Nat := do
  complain (command ++ ": " ++ message)
  pure code

def print (command data : Text) : Step Nat := do
  if ← ofExec (Exec.write 1 data) then pure 0
  else misused command (command ++ ": I/O error") 1

def echo : Builtin := fun arguments => do
  let newline : Bool := arguments.head? != some ("-n" : Text)
  let words := if newline then arguments else arguments.tail
  let (text, ended) := Escape.argument (Text.join 32 words)
  print "echo" (if ended || !newline then text else text ++ "\n")

def printf : Builtin := fun arguments => do
  match arguments with
  | [] => misused "printf" "usage: printf format [arg ...]" 2
  | format :: arguments =>
    match formatted format arguments with
    | some text => print "printf" text
    | none => misused "printf" (format ++ ": invalid directive") 2

def pwd : Builtin := fun _ => do
  match (← get).execution.directory with
  | some place => print "pwd" (FileTree.pathOf place ++ "\n")
  | none => misused "pwd" "getcwd() failed: No such file or directory" 1

def cd : Builtin := fun arguments => do
  let s ← get
  let path := arguments.headD ((s.bindings.find? "HOME").getD [])
  match Machine.tree.enter (s.execution.directory.getD []) path with
  | .error _ => misused "cd" ("can't cd to " ++ path) 2
  | .ok place =>
    let s := { s with execution := { s.execution with directory := some place } }
    set (s.setVariable "PWD" (FileTree.pathOf place))
    pure 0

-- Without argument, the code of the command before.
def exit : Builtin := fun arguments => do
  match arguments with
  | [] => Step.exit (← get).status
  | code :: _ =>
    if !code.isEmpty && code.all Text.isDigit then Step.exit (Decimal.value code)
    else fatal ("exit: Illegal number: " ++ code)

def signalNames : List Text :=
  ["HUP", "INT", "QUIT", "ILL", "TRAP", "ABRT", "BUS", "FPE", "KILL", "USR1", "SEGV", "USR2",
    "PIPE", "ALRM", "TERM", "STKFLT", "CHLD", "CONT", "STOP", "TSTP", "TTIN", "TTOU", "URG", "XCPU",
    "XFSZ", "VTALRM", "PROF", "WINCH", "IO", "PWR", "SYS"]

def signalOf (t : Text) : Option Nat :=
  if t.all Text.isDigit then if Decimal.value t < Signal.count then some (Decimal.value t) else none
  else ((signalNames.findIdx? (· = t)).map (· + 1))

-- Signals reach only the shell itself.
def kill : Builtin := fun arguments => do
  let (signal, targets) : Option Nat × List Text :=
    match arguments with
    | [] => (none, [])
    | first :: rest =>
      if first = "-s" then (signalOf (rest.headD []), rest.tail)
      else if first.head? = some '-' then (signalOf first.tail, rest)
      else (some Signal.terminate, arguments)
  match signal with
  | none => misused "kill" ("Illegal option " ++ (arguments.headD []).take 2) 2
  | some signal =>
    if targets = [State.ownNumber] then
      if Signal.harmless.contains signal then pure 0
      else if Signal.stopping.contains signal then halt .waiting
      else halt (.ended (.signaled signal))
    else misused "kill" "No such process\n" 1

-- A line without the backslashes in it, and whether it goes on with the next one.
def unquoted (t : Text) : Text × Bool :=
  match t with
  | [] => ([], false)
  | [c] => if c = 92 then ([], true) else ([c], false)
  | c :: d :: rest =>
    if c = 92 then ((d :: (unquoted rest).1), (unquoted rest).2)
    else (c :: (unquoted (d :: rest)).1, (unquoted (d :: rest)).2)

-- Names and the fields of a line for them. The last name takes what is left.
def distribute (blanks : Text) : List Text → Text → List (Text × Text)
  | [], _ => []
  | [name], t =>
    let isSoft (c : UInt8) : Bool := blanks.contains c && Text.isBlank c
    [(name, ((t.dropWhile isSoft).reverse.dropWhile isSoft).reverse)]
  | name :: names, t =>
    let isSoft (c : UInt8) : Bool := blanks.contains c && Text.isBlank c
    let t := t.dropWhile isSoft
    let rest := (t.dropWhile fun c => !blanks.contains c)
    let rest := if rest.head?.any isSoft then rest.dropWhile isSoft else rest
    let rest := if rest.head?.any fun c => blanks.contains c && !isSoft c then rest.tail else rest
    (name, t.takeWhile fun c => !blanks.contains c) :: distribute blanks names rest

-- Lines are joined where a backslash ends them, unless they are read raw.
def readLines : (fuel : Nat) → (raw : Bool) → Step (Text × Bool)
  | 0, _ => halt .waiting
  | fuel + 1, raw => do
    let (line, whole) ← ofExec Exec.readLine
    let line := line.filter (· != 0)
    if raw then pure (line, whole)
    else
      let (line, goesOn) := unquoted line
      if goesOn && whole then
        let (more, whole) ← readLines fuel raw
        pure (line ++ more, whole)
      else pure (line, whole)

def read : Builtin := fun arguments => do
  let raw : Bool := arguments.head? = some ("-r" : Text)
  let names := if raw then arguments.tail else arguments
  if names.isEmpty then misused "read" "arg count" 2
  else
    let (line, whole) ← readLines ((← get).execution.input.length + 1) raw
    modify fun s => (distribute s.blanks names line).foldl (fun s e => s.setVariable e.1 e.2) s
    pure (if whole then 0 else 1)

-- The bound of the data segment in units of 1024 bytes.
def ulimit : Builtin := fun arguments => do
  if arguments = [("-d" : Text)] then
    match (← get).execution.heapLimit with
    | some n => print "ulimit" (Decimal.digits (n / 1024) ++ "\n")
    | none => print "ulimit" "unlimited\n"
  else misused "ulimit" "bad option" 2

def publish : Builtin := fun arguments => do
  modify fun s =>
    arguments.foldl
      (fun s t =>
        let name := t.takeWhile fun (c : UInt8) => c != '='
        let s := if t.contains '=' then s.setVariable name (t.drop (name.length + 1)) else s
        { s with exported := s.exported.insert name () })
      s
  pure 0

def unset : Builtin := fun arguments => do
  modify fun s => arguments.foldl State.unsetVariable s
  pure 0

def shift : Builtin := fun arguments => do
  let n := (arguments.head?.map Decimal.value).getD 1
  let s ← get
  if s.arguments.length < n then fatal "shift: can't shift that many"
  else
    set { s with arguments := s.arguments.drop n }
    pure 0

def setArguments : Builtin := fun arguments => do
  let marked : Bool := arguments.head? = some ("--" : Text)
  modify fun s => { s with arguments := if marked then arguments.tail else arguments }
  pure 0

def comparison (name : Text) : Option (Int → Int → Bool) :=
  ([("-eq", fun a b => a == b), ("-ne", fun a b => a != b), ("-lt", fun a b => a < b),
    ("-le", fun a b => a ≤ b), ("-gt", fun a b => b < a), ("-ge", fun a b => b ≤ a)] :
    List (Text × (Int → Int → Bool))).lookup name

def node? (s : State) (path : Text) : Option Node := do
  let place ← (Machine.tree.resolve (s.execution.directory.getD []) path).toOption
  Machine.tree.node? place

def condition (s : State) (arguments : List Text) : Option Bool :=
  match arguments with
  | [] => some false
  | [t] => some !t.isEmpty
  | [op, t] =>
    if op = "!" then some t.isEmpty
    else if op = "-n" then some !t.isEmpty
    else if op = "-z" then some t.isEmpty
    else if op = "-e" then some (node? s t).isSome
    else if op = "-d" then some (node? s t = some (.directory true))
    else if op = "-f" then some (node? s t = some (.file true) || node? s t = some (.file false))
    else if op = "-x" then some (Machine.tree.accessible (s.execution.directory.getD []) t)
    else none
  | [a, op, b] =>
    if op = "=" then some (a = b)
    else if op = "!=" then some (a ≠ b)
    else
      match comparison op with
      | some compare => some (compare (Format.number a) (Format.number b))
      | none => if a = "!" then (condition s [op, b]).map (!·) else none
  | first :: rest => if first = "!" then (condition s rest).map (!·) else none

def test (name : Text) : Builtin := fun arguments => do
  match condition (← get) arguments with
  | some holds => pure (if holds then 0 else 1)
  | none => misused name "unexpected operator" 2

def bracket : Builtin := fun arguments => do
  if arguments.getLast? = some ("]" : Text) then test "[" arguments.dropLast
  else misused "[" "missing ]" 2

def leave (again : Bool) : Builtin := fun _ => throw (.left again)

def named (name : Text) : Option Builtin :=
  ([(":", fun _ => pure 0), ("true", fun _ => pure 0), ("false", fun _ => pure 1), ("echo", echo),
    ("printf", printf), ("pwd", pwd), ("cd", cd), ("exit", exit), ("kill", kill), ("read", read),
    ("ulimit", ulimit), ("export", publish), ("unset", unset), ("shift", shift),
    ("set", setArguments), ("test", test "test"), ("[", bracket), ("break", leave false),
    ("continue", leave true), ("wait", fun _ => pure 0)] : List (Text × Builtin)).lookup name

end Foreman.Shell.Builtins
