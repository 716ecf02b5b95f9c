import Foreman.System.FileTree

namespace Foreman

def defaultSearchPath : Text := "/usr/bin:/bin"

-- The candidates for a name, in the order of the directories. An empty directory is the current
-- one.
def candidates (searchPath name : Text) : List Text :=
  (Text.split ':' searchPath).map fun directory =>
    Text.withSlash (Text.orElse directory ".") ++ name

-- The path to execute for a name, or nothing. A name with a slash is a path itself.
def findExecutable (tree : FileTree) (directory : Place) (searchPath : Option Text) (name : Text) :
    Option Text :=
  if name.isEmpty then none
  else if name.contains '/' then if tree.accessible directory name then some name else none
  else (candidates (searchPath.getD defaultSearchPath) name).find? (tree.accessible directory)

end Foreman
