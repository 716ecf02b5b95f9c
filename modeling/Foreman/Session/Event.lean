import Foreman.Enumeration.Flags
import Foreman.Session.LogLevel

namespace Foreman

-- The parts of the program that are traced separately.
inductive Channel where
  | default
  | cache
  | worker
  | config
deriving DecidableEq, Repr

instance : Enumeration Channel where
  typeName := "Channel"
  values := [.default, .cache, .worker, .config]
  number
    | .default => 0
    | .cache => 1
    | .worker => 2
    | .config => 3
  camel
    | .default => "Default"
    | .cache => "Cache"
    | .worker => "Worker"
    | .config => "Config"

inductive Event where
  -- A scope starts. With `first` its first record holds these words after the tag.
  | opened (channel : Channel) (tag : Text) (first : Option (List Text))
  -- a further record of the innermost scope
  | noted (words : List Text)
  | closed
  -- a message to the user
  | reported (level : LogLevel) (message : Text)
  -- messages below this level are dropped from now on
  | levelSet (level : LogLevel)
deriving DecidableEq

-- A value traced under a name: a flag by its name alone, with a mark in front when it is off.
def Event.flag (name : Text) (value : Bool) : Text :=
  if value then name else '!' :: name

def Event.named (name value : Text) : Text :=
  name ++ "=" ++ value

end Foreman
