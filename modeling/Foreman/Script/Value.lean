import Foreman.Number.Decimal
import Foreman.Text.Layout

namespace Foreman.Script

-- Sets, byte strings, objects, and strings with lone surrogates are no values here.
inductive Value where
  | none
  | bool (b : Bool)
  | int (n : Int)
  -- given by its text
  | float (text : Text)
  | str (text : Text)
  | list (items : List Value)
  | tuple (items : List Value)
  -- the entries in the order in which their keys first appeared
  | dict (entries : List (Value × Value))
deriving Inhabited

namespace Value

mutual

def same : Value → Value → Bool
  | none, none => true
  | bool a, bool b => a == b
  | int m, int n => m == n
  | float a, float b => a == b
  | str a, str b => a == b
  | list as, list bs => sameItems as bs
  | tuple as, tuple bs => sameItems as bs
  | dict as, dict bs => sameEntries as bs
  | _, _ => false

def sameItems : List Value → List Value → Bool
  | [], [] => true
  | a :: as, b :: bs => same a b && sameItems as bs
  | _, _ => false

def sameEntries : List (Value × Value) → List (Value × Value) → Bool
  | [], [] => true
  | (key, value) :: as, (key', value') :: bs =>
    same key key' && same value value' && sameEntries as bs
  | _, _ => false

end

instance : BEq Value := ⟨same⟩

def typeName : Value → Text
  | none => "NoneType"
  | bool _ => "bool"
  | int _ => "int"
  | float _ => "float"
  | str _ => "str"
  | list _ => "list"
  | tuple _ => "tuple"
  | dict _ => "dict"

-- A byte inside quotes. Control characters are told by their codes. All characters beyond ASCII stay
-- as they are, also those that cannot be printed.
def quoteByte (quote c : UInt8) : Text :=
  if c = quote || c = 92 then [92, c]
  else if c = '\n' then [92, 'n']
  else if c = '\t' then [92, 't']
  else if c = '\r' then [92, 'r']
  else if c < 32 || c = 127 then "\\x" ++ Text.hex c.toNat 2
  else [c]

-- Single quotes, unless they would have to be escaped and double ones would not.
def quoted (text : Text) : Text :=
  let quote : UInt8 := if text.contains 39 && !text.contains 34 then 34 else 39
  [quote] ++ text.flatMap (quoteByte quote) ++ [quote]

def boolText (b : Bool) : Text :=
  if b then "True" else "False"

def commaSeparated (items : List Text) : Text :=
  Text.intercalate ", " items

def tupleText (items : List Text) : Text :=
  match items with
  | [item] => "(" ++ item ++ ",)"
  | items => "(" ++ commaSeparated items ++ ")"

mutual

def innerText : Value → Text
  | none => "None"
  | bool b => boolText b
  | int n => Decimal.text n
  | float text => text
  | str text => quoted text
  | list items => "[" ++ commaSeparated (innerTexts items) ++ "]"
  | tuple items => tupleText (innerTexts items)
  | dict entries => "\x7b" ++ commaSeparated (entryTexts entries) ++ "\x7d"

def innerTexts : List Value → List Text
  | [] => []
  | item :: items => innerText item :: innerTexts items

def entryTexts : List (Value × Value) → List Text
  | [] => []
  | (key, value) :: entries => (innerText key ++ ": " ++ innerText value) :: entryTexts entries

end

-- The text of a value. A string is its own text.
def text : Value → Text
  | str text => text
  | value => innerText value

-- Nothing, zeros and empty values are false.
def isTrue : Value → Bool
  | none => false
  | bool b => b
  | int n => n != 0
  | float text => text != ("0.0" : Text) && text != ("-0.0" : Text)
  | str text => !text.isEmpty
  | list items => !items.isEmpty
  | tuple items => !items.isEmpty
  | dict entries => !entries.isEmpty

-- A flag is equal to the number that it counts for.
def number? : Value → Option Int
  | bool b => some (if b then 1 else 0)
  | int n => some n
  | _ => Option.none

def sameKey (a b : Value) : Bool :=
  match a.number?, b.number? with
  | some m, some n => m == n
  | _, _ => a == b

end Value

abbrev Entries := List (Value × Value)

namespace Entries

def put (entries : Entries) (key value : Value) : Entries :=
  match entries with
  | [] => [(key, value)]
  | e :: rest => if e.1.sameKey key then (e.1, value) :: rest else e :: put rest key value

def ofList (pairs : List (Value × Value)) : Entries :=
  pairs.foldl (fun entries e => put entries e.1 e.2) []

def find? (entries : Entries) (name : Text) : Option Value :=
  (List.find? (fun e => e.1 == .str name) entries).map (·.2)

end Entries

end Foreman.Script
