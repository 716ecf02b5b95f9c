import Foreman.Number.Decimal
import Foreman.System.FileTree
import Foreman.Text.Layout

namespace Foreman

structure Descriptor where
  number : Int
  closesOnExec : Bool := false
deriving DecidableEq

namespace Descriptor

def isValid (d : Descriptor) : Bool := 0 ≤ d.number

def isStandard (d : Descriptor) : Bool := 0 ≤ d.number && d.number ≤ 2

def firstFree (used : List Int) : Int :=
  let free := (List.range (used.length + 1)).find? fun (n : Nat) => !used.contains (3 + (n : Int))
  3 + free.getD used.length

-- A free number takes the place of a standard one, which is closed.
def moveUp (d : Descriptor) (used : List Int) : Descriptor :=
  if d.isStandard then ⟨firstFree used, true⟩ else d

def cannot (action : Text) (d : Descriptor) (e : SystemError) : Text :=
  "cannot " ++ action ++ " fd " ++ Decimal.text d.number ++ " : " ++ e.text

def readClosed {α : Type} (d : Descriptor) : Except Text α :=
  .error (cannot "read from" d .badDescriptor)

def writeClosed (d : Descriptor) (data : Text) : Except Text Unit :=
  if data.isEmpty then .ok () else .error (cannot "write to" d .badDescriptor)

def closeClosed (d : Descriptor) : Except Text Descriptor :=
  if d.isValid then .error (cannot "close" d .badDescriptor) else .ok d

end Descriptor

namespace FileTree

def cannotOpen (path : Text) (e : SystemError) : Text :=
  "cannot open " ++ path ++ " : " ++ e.text

def open? (tree : FileTree) (directory : Place) (path : Text) : Except Text Place :=
  (tree.resolve directory path).mapError (cannotOpen path)

-- Opening a file whose content is read, when only the standard descriptors are in use. Directories
-- can be opened, but have no content.
def openToRead? (tree : FileTree) (directory : Place) (path : Text) : Except Text Place := do
  let place ← tree.open? directory path
  match tree.node? place with
  | some (.directory _) =>
    .error (Descriptor.cannot "read from" ⟨Descriptor.firstFree [0, 1, 2], true⟩ .isDirectory)
  | _ => pure place

end FileTree

namespace Pipe

-- The options that a pipe may have: not to block, to keep packets apart, to close on execution.
def options : UInt32 := 0x800 ||| 0x4000 ||| 0x80000

def make (flags : UInt32) : Except Text Unit :=
  if flags &&& ~~~options = 0 then .ok ()
  else
    .error ("cannot create pipes (flags=0x" ++ Text.hex flags.toNat 8 ++ ") : " ++
      SystemError.invalid.text)

end Pipe

end Foreman
