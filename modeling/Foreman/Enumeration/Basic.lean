import Foreman.Number.Decimal
import Foreman.Text.Basic

namespace Foreman

-- The values in the order of their numbers, which count from 0.
class Enumeration (α : Type) where
  typeName : Text
  values : List α
  number : α → Nat
  camel : α → Text

namespace Enumeration

-- An underscore in front of each inner capital, and all letters small.
def snakeOf : Text → Text
  | [] => []
  | c :: rest =>
    Text.lowerByte c ::
      rest.flatMap fun c => if Text.isUpper c then ['_', Text.lowerByte c] else [c]

variable {α : Type} [Enumeration α]

def snake (a : α) : Text :=
  snakeOf (camel a)

def count (α : Type) [Enumeration α] : Nat :=
  (values : List α).length

def ofNumber? (n : Nat) : Option α :=
  (values : List α)[n]?

-- A number past the last value is told by its distance from the end.
def showNumber (α : Type) [Enumeration α] (n : Nat) : Text :=
  match (ofNumber? n : Option α) with
  | some a => snake a
  | none => "N+" ++ Decimal.digits (n - count α)

def ofName? (name : Text) : Option α :=
  (values : List α).find? fun a => camel a = name || snake a = name

def unknownName (α : Type) [Enumeration α] (name : Text) : Text :=
  "cannot make enum " ++ typeName α ++ " from " ++ name

def ofName (name : Text) : Except Text α :=
  match ofName? name with
  | some a => .ok a
  | none => .error (unknownName α name)

end Enumeration

end Foreman
