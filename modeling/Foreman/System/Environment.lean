import Foreman.Text.Table

namespace Foreman

abbrev Environment := Table Text

namespace Environment

def isName (name : Text) : Bool :=
  !name.isEmpty && !name.contains '='

-- Names and values end at their first NUL byte.
def set (env : Environment) (name value : Text) : Environment :=
  env.insert name.untilNul value.untilNul

def unset (env : Environment) (name : Text) : Environment :=
  env.erase name.untilNul

def strings (env : Environment) : List Text :=
  env.entries.map fun e => Text.untilNul (e.1 ++ "=" ++ e.2)

-- The value of a variable is what follows its name and an equals sign in one of the strings.
def getD (env : Environment) (name default : Text) : Text :=
  let start := name.untilNul ++ "="
  match env.strings.find? start.isPrefixOf with
  | some string => string.drop start.length
  | none => default

-- A string is split at its first equals sign.
def entryOf (string : Text) : Option (Text × Text) :=
  if string.contains '=' then
    some (string.takeWhile fun (c : UInt8) => c != '=',
      (string.dropWhile fun (c : UInt8) => c != '=').tail)
  else none

-- The variables that strings carry. Strings without an equals sign carry none.
def ofStrings (strings : List Text) : Environment :=
  Table.ofList (strings.filterMap entryOf)

end Environment

end Foreman
