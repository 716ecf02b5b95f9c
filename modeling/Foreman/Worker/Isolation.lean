import Foreman.Failure
import Foreman.Number.Size
import Foreman.Text.Path
import Foreman.Text.Shown

namespace Foreman

structure Isolation where
  -- locations visible to the worker, in their order
  codePath : List Text := []
  -- dotted names of the packages shared across the boundary
  sharedPackages : NameSet := ∅
  -- bounds of the heap in bytes, 0 for none
  minHeap : Nat := 0
  maxHeap : Nat := 0
  arguments : List Text := []
  directory : Text := []
  environment : Table Text := ∅
deriving DecidableEq

namespace Isolation

def text (spec : Isolation) : Text :=
  let item (name value : Text) (present : Bool) : List Text :=
    if present then [name ++ "=" ++ value] else []
  let items : List Text :=
    item "code_path" (Text.showList spec.codePath) (!spec.codePath.isEmpty) ++
    item "shared_pkgs" (Text.showSet spec.sharedPackages) (!spec.sharedPackages.isEmpty) ++
    item "min_heap" (Size.writeBytes spec.minHeap) (spec.minHeap != 0) ++
    item "max_heap" (Size.writeBytes spec.maxHeap) (spec.maxHeap != 0) ++
    item "args" (Text.showList spec.arguments) (!spec.arguments.isEmpty) ++
    item "cwd" spec.directory.noSlash (!spec.directory.isEmpty) ++
    item "env" (Text.showTable spec.environment) (!spec.environment.isEmpty)
  "WorkerIsolationSpec(" ++ Text.intercalate "," items ++ ")"

def isNameByte (c : UInt8) : Bool :=
  Text.isLetter c || Text.isDigit c || c == '_'

-- Names with points between them, a name being a non-empty run of name bytes that does not start
-- with a digit. `inside` tells whether the current name has started.
def isDotted (inside : Bool) : Text → Bool
  | [] => inside
  | c :: rest =>
    if c = '.' then inside && isDotted false rest
    else isNameByte c && (inside || !Text.isDigit c) && isDotted true rest

def isPackageName (name : Text) : Bool :=
  isDotted false name

def checkPackages (spec : Isolation) : Except Failure Unit :=
  match spec.sharedPackages.toList.find? fun name => !isPackageName name with
  | some name => .error (.invalidArgument ("bad shared package name '" ++ name ++ "'"))
  | none => .ok ()

def checkCodePath (spec : Isolation) : Except Failure Unit :=
  if spec.codePath.any List.isEmpty then
    .error (.invalidArgument "code path entries cannot be empty")
  else .ok ()

-- Bounds that are not set do not matter.
def checkHeap (spec : Isolation) : Except Failure Unit :=
  if spec.minHeap != 0 && spec.maxHeap != 0 && spec.minHeap > spec.maxHeap then
    .error (.invalidArgument
      ("min heap size (" ++ Size.writeBytes spec.minHeap ++ ") is larger than max heap size (" ++
        Size.writeBytes spec.maxHeap ++ ")"))
  else .ok ()

def isVariableName (name : Text) : Bool :=
  !name.isEmpty && !name.contains '='

def checkEnvironment (spec : Isolation) : Except Failure Unit :=
  match spec.environment.keys.find? fun name => !isVariableName name with
  | some name => .error (.invalidArgument ("bad environment variable name '" ++ name ++ "'"))
  | none => .ok ()

def check (spec : Isolation) : Except Failure Unit := do
  spec.checkPackages
  spec.checkCodePath
  spec.checkHeap
  spec.checkEnvironment

end Isolation

end Foreman
