import Foreman.Number.Decimal
import Foreman.Text.Layout
import Foreman.Text.Table

namespace Foreman.Text

def showList (items : List Text) : Text :=
  "[" ++ intercalate "," items ++ "]"

def braced (items : List Text) : Text :=
  "\x7b" ++ intercalate "," items ++ "\x7d"

def showSet (names : NameSet) : Text :=
  braced names.toList

def showTable (table : Table Text) : Text :=
  braced (table.entries.map fun e => e.1 ++ ":" ++ e.2)

def showPair (first second : Text) : Text :=
  "(" ++ first ++ "," ++ second ++ ")"

def showPairs (pairs : List (Text × Text)) : Text :=
  showList (pairs.map fun e => showPair e.1 e.2)

def showOption (value : Option Text) : Text :=
  value.getD "<none>"

def showFlag (value : Bool) : Text :=
  if value then "true" else "false"

-- Address 0 is that of nothing.
def showAddress (address : Nat) : Text :=
  if address = 0 then "(null)" else "0x" ++ hex address 16

def showDescriptor (keeper : Text) (number : Int) : Text :=
  keeper ++ "(" ++ Decimal.text number ++ ")"

end Foreman.Text
