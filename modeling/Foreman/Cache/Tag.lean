import Foreman.Enumeration.Basic

namespace Foreman

-- Parents come first.
inductive CacheTag where
  -- unset
  | none
  -- the root of all types
  | any
  | dir
  | sharedDir
  | remote
  | http
  | daemon
deriving DecidableEq, Repr

instance : Enumeration CacheTag where
  typeName := "CacheTag"
  values := [.none, .any, .dir, .sharedDir, .remote, .http, .daemon]
  number
    | .none => 0
    | .any => 1
    | .dir => 2
    | .sharedDir => 3
    | .remote => 4
    | .http => 5
    | .daemon => 6
  camel
    | .none => "None"
    | .any => "Any"
    | .dir => "Dir"
    | .sharedDir => "SharedDir"
    | .remote => "Remote"
    | .http => "Http"
    | .daemon => "Daemon"

instance : Inhabited CacheTag := ⟨.none⟩

namespace CacheTag

def parent : CacheTag → CacheTag
  | none => none
  | any => none
  | dir => any
  | sharedDir => dir
  | remote => any
  | http => remote
  | daemon => remote

-- The tag itself and what is above it, the unset tag being left out.
def ancestors : CacheTag → List CacheTag
  | none => []
  | any => [any]
  | dir => [dir, any]
  | sharedDir => [sharedDir, dir, any]
  | remote => [remote, any]
  | http => [http, remote, any]
  | daemon => [daemon, remote, any]

-- Whether a tag is another one or below it. The unset tag is related to nothing.
def isA (tag ancestor : CacheTag) : Bool :=
  tag.ancestors.contains ancestor

def name (tag : CacheTag) : Text := Enumeration.snake tag

theorem isA_trans {a b c : CacheTag} (hab : a.isA b) (hbc : b.isA c) : a.isA c := by
  revert hab hbc
  cases a <;> cases b <;> cases c <;> decide

end CacheTag

inductive CacheTier where
  | local
  | remote
deriving DecidableEq, Repr

instance : Enumeration CacheTier where
  typeName := "CacheTier"
  values := [.local, .remote]
  number
    | .local => 0
    | .remote => 1
  camel
    | .local => "Local"
    | .remote => "Remote"

namespace CacheTier

def name (tier : CacheTier) : Text := Enumeration.snake tier

end CacheTier

end Foreman
