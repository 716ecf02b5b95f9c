import Foreman.Runs.Execution
import Foreman.Runs.Machine
import Foreman.Runs.Shell.Escape

namespace Foreman.Tools

open Exec Shell

-- A complaint starts with the name that the program was called by. The exit code is 1.
def failed (words : List Text) : Exec Nat := do
  let name := (← get).arguments.headD []
  complain (name ++ ": " ++ words.flatten ++ "\n")
  pure 1

def badDescriptor : Text := SystemError.badDescriptor.text

def print (data : Text) : Exec Nat := do
  if ← write 1 data then pure 0 else failed ["write error: ", badDescriptor]

-- Copies the input as it comes, and waits for what will come yet.
def copyInput : Exec Nat := do
  if ((← get).stream? 0).isNone then
    let _ ← failed ["-: ", badDescriptor]
    failed ["closing standard input: ", badDescriptor]
  else
    let (data, last) ← readSome
    let _ ← write 1 data
    if last then pure 0 else wait

def copyFile (path : Text) : Exec Nat := do
  match Machine.tree.resolve ((← get).directory.getD []) path with
  | .error e => failed [path, ": ", e.text]
  | .ok place =>
    match Machine.tree.node? place with
    | some (.directory _) => failed [path, ": ", SystemError.isDirectory.text]
    | _ => pure 0

def cat : Exec Nat := do
  if ((← get).stream? 1).isNone then failed ["standard output: ", badDescriptor]
  else
    let files := (← get).arguments.tail
    let inputName : Text := "-"
    let codes ← (if files.isEmpty then [inputName] else files).mapM fun file =>
      if file = inputName then copyInput else copyFile file
    pure (codes.foldl max 0)

def isEchoOption (t : Text) : Bool :=
  t.head? = some '-' && !t.tail.isEmpty && t.tail.all fun c => ("neE" : Text).contains c

def echo : Exec Nat := do
  let arguments := (← get).arguments.tail
  let options := (arguments.takeWhile isEchoOption).flatMap List.tail
  let text := Text.join 32 (arguments.dropWhile isEchoOption)
  let interpreted : Bool := (options.filter fun (c : UInt8) => c != 'n').getLast? = some 'e'
  let (text, ended) := if interpreted then Escape.argument text else (text, false)
  print (if ended || options.contains 'n' then text else text ++ "\n")

def printf : Exec Nat := do
  match (← get).arguments.tail with
  | [] => failed ["missing operand"]
  | format :: arguments =>
    match formatted format arguments with
    | some text => print text
    | none => failed [format, ": invalid conversion specification"]

def pwd : Exec Nat := do
  match (← get).directory with
  | some place => print (FileTree.pathOf place ++ "\n")
  | none => failed ["couldn't find directory entry in '..' with matching i-node"]

def env : Exec Nat := do
  print ((← get).environment.flatMap (· ++ "\n"))

def sleep : Exec Nat := do
  let e ← get
  match e.arguments.tail with
  | [] =>
    let _ ← failed ["missing operand"]
    complain ("Try '" ++ e.arguments.headD [] ++ " --help' for more information.\n")
    pure 1
  | _ =>
    pause
    pure 0

def named (name : Text) : Option (Exec Nat) :=
  ([("cat", cat), ("echo", echo), ("env", env), ("false", pure 1), ("printf", printf), ("pwd", pwd),
    ("sleep", sleep), ("true", pure 0)] : List (Text × Exec Nat)).lookup name

end Foreman.Tools
