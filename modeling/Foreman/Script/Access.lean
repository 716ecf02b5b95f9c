import Foreman.Enumeration.Basic
import Foreman.Number.IntType
import Foreman.Number.Size
import Foreman.Script.Value

namespace Foreman.Script

inductive ValueError where
  | wrongType (given expected : Text)
  -- a number below zero for an unsigned type
  | negative
  -- a number that does not fit the widest type
  | tooLarge (signed : Bool)
  | overflow
  | underflow
deriving DecidableEq

def ValueError.message : ValueError → Text
  | wrongType given expected => "type error : " ++ given ++ " is not a " ++ expected
  | negative => "OverflowError: can't convert negative value to unsigned int\n"
  | tooLarge false => "OverflowError: Python int too large to convert to C unsigned long\n"
  | tooLarge true => "OverflowError: Python int too large to convert to C long\n"
  | overflow => "overflow"
  | underflow => "underflow"

def toFixed (t : IntType) (n : Int) : Except ValueError Int :=
  if t.signed then
    if !IntType.i64.Fits n then .error (.tooLarge true)
    else if n < t.min then .error .underflow
    else if n > t.max then .error .overflow
    else .ok n
  else if n < 0 then .error .negative
  else if n > IntType.u64.max then .error (.tooLarge false)
  else if n > t.max then .error .overflow
  else .ok n

namespace Value

def wrongType {α : Type} (value : Value) (expected : Text) : Except ValueError α :=
  .error (.wrongType value.typeName expected)

-- A flag is no number here.
def asInt : Value → Except ValueError Int
  | int n => .ok n
  | value => value.wrongType "int"

def asStr : Value → Except ValueError Text
  | str text => .ok text
  | value => value.wrongType "str"

def asSequence : Value → Except ValueError (List Value)
  | list items => .ok items
  | tuple items => .ok items
  | value => value.wrongType "list/tuple"

def asDict : Value → Except ValueError Entries
  | dict entries => .ok entries
  | value => value.wrongType "dict"

-- The text that a value has as a setting: flags are written in small letters.
def settingText : Value → Text
  | bool true => "true"
  | bool false => "false"
  | value => value.text

end Value

abbrev Access (α : Type) := Except Text α

namespace Access

def of {α : Type} (value : Except ValueError α) : Access α :=
  value.mapError ValueError.message

def text (value : Value) : Access Text := of value.asStr

def texts (value : Value) : Access (List Text) := do
  (← of value.asSequence).mapM text

def dict (value : Value) : Access Entries := of value.asDict

def name {α : Type} [Enumeration α] (value : Value) : Access α := do
  Enumeration.ofName (← text value)

def size (value : Value) : Access Nat :=
  match value with
  | .int n => of ((toFixed .u64 n).map Int.toNat)
  | value => do (Size.readBytes (← text value)).mapError SizeError.message

end Access

end Foreman.Script
