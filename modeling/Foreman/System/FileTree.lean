import Foreman.Text.Path

namespace Foreman

inductive SystemError where
  | notFound
  | notDirectory
  | nameTooLong
  | isDirectory
  | notPermitted
  | tooManyLinks
  | badDescriptor
  | invalid
deriving DecidableEq, Repr

namespace SystemError

def text : SystemError → Text
  | notFound => "No such file or directory"
  | notDirectory => "Not a directory"
  | nameTooLong => "File name too long"
  | isDirectory => "Is a directory"
  | notPermitted => "Permission denied"
  | tooManyLinks => "Too many levels of symbolic links"
  | badDescriptor => "Bad file descriptor"
  | invalid => "Invalid argument"

end SystemError

inductive Node where
  | directory (searchable : Bool)
  | file (executable : Bool)
  -- a symbolic link, whose target is looked for from the directory that it is in
  | link (target : Text)
deriving DecidableEq, Repr

-- A place in a tree, given by the names on the way from the root.
abbrev Place := List Text

-- What there is besides the root, which is a directory. A file is in one place only.
structure FileTree where
  nodes : List (Place × Node)

-- How far a path has led, and how many links it may still go through.
structure Stage where
  place : Place
  links : Nat

namespace FileTree

def node? (tree : FileTree) (place : Place) : Option Node :=
  if place.isEmpty then some (.directory true)
  else (tree.nodes.find? fun e => e.1 = place).map (·.2)

-- Adds a node and the directories on the way to it. What is there already stays.
def add (tree : FileTree) (place : Place) (node : Node) : FileTree :=
  let parents := (List.range place.length).map fun n => (place.take n, Node.directory true)
  (parents ++ [(place, node)]).foldl
    (fun tree e => if (tree.node? e.1).isSome then tree else ⟨tree.nodes ++ [e]⟩)
    tree

def longestName : Nat := 255

def longestPath : Nat := 4095

def mostLinks : Nat := 40

-- The entry of a directory under a name, be it a link or not. The empty name, which is left behind
-- a slash at the end of a path, asks for a directory only, and all other names for one that can be
-- searched.
def entry (tree : FileTree) (place : Place) (name : Text) : Except SystemError Place :=
  match tree.node? place with
  | none => .error .notFound
  | some (.file _) | some (.link _) => .error .notDirectory
  | some (.directory searchable) =>
    if name.isEmpty then .ok place
    else if !searchable then .error .notPermitted
    else if name = "." then .ok place
    else if name = ".." then .ok place.dropLast
    else if name.length > longestName then .error .nameTooLong
    else if (tree.node? (place ++ [name])).isSome then .ok (place ++ [name])
    else .error .notFound

-- Goes along a path by its names. A path ends at its first NUL byte.
def follow (step : Stage → Text → Except SystemError Stage) (start : Stage) (path : Text) :
    Except SystemError Stage :=
  let path := path.untilNul
  if path.isEmpty then .error .notFound
  else if path.length > longestPath then .error .nameTooLong
  else
    (Text.split '/' path).foldlM step
      { start with place := if path.isAbsolute then [] else start.place }

-- One step along a path, given the way through a link.
def stepVia (tree : FileTree) (through : Stage → Text → Except SystemError Stage) (stage : Stage)
    (name : Text) : Except SystemError Stage := do
  let next ← tree.entry stage.place name
  match tree.node? next, stage.links with
  | some (.link target), links + 1 => through { stage with links } target
  | some (.link _), 0 => .error .tooManyLinks
  | _, _ => .ok { stage with place := next }

-- Links lie within each other no deeper than `depth`.
def step (tree : FileTree) : (depth : Nat) → Stage → Text → Except SystemError Stage
  | 0 => tree.stepVia fun _ _ => .error .tooManyLinks
  | depth + 1 => tree.stepVia (follow (tree.step depth))

def walk (tree : FileTree) (directory : Place) (path : Text) : Except SystemError Stage :=
  follow (tree.step mostLinks) ⟨directory, mostLinks⟩ path

def resolve (tree : FileTree) (directory : Place) (path : Text) : Except SystemError Place :=
  (tree.walk directory path).map (·.place)

def accessible (tree : FileTree) (directory : Place) (path : Text) : Bool :=
  match tree.resolve directory path with
  | .error _ => false
  | .ok place =>
    match tree.node? place with
    | some (.directory searchable) => searchable
    | some (.file executable) => executable
    | some (.link _) | none => false

def enter (tree : FileTree) (directory : Place) (path : Text) : Except SystemError Place := do
  let place ← tree.resolve directory path
  match tree.node? place with
  | some (.directory true) => pure place
  | some (.directory false) => .error .notPermitted
  | some (.file _) | some (.link _) => .error .notDirectory
  | none => .error .notFound

def program (tree : FileTree) (directory : Place) (path : Text) : Except SystemError Place := do
  let place ← tree.resolve directory path
  match tree.node? place with
  | some (.file true) => pure place
  | some _ => .error .notPermitted
  | none => .error .notFound

def pathOf (place : Place) : Text :=
  if place.isEmpty then "/" else place.flatMap ('/' :: ·)

end FileTree

end Foreman
