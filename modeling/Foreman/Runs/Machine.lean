import Foreman.System.FileTree

namespace Foreman.Machine

-- Where test runs are started.
def home : Place := ["srv", "foreman", "run"]

def deepest : Place := ["sys", "devices", "system", "cpu", "cpu0", "cache", "index0"]

def directories : List Place :=
  let usual : List Place :=
    [["bin"], ["dev"], ["etc"], ["home"], ["proc"], ["root"], ["tmp"], ["usr"], ["usr", "bin"],
      ["usr", "lib"], ["usr", "local"], ["usr", "local", "bin"], ["usr", "sbin"], ["usr", "share"],
      ["var"], ["var", "tmp"]]
  let above (place : Place) : List Place :=
    (List.range place.length).map fun n => place.take (n + 1)
  usual ++ above home ++ above deepest

def programs : List Text :=
  ["cat", "echo", "env", "false", "printf", "pwd", "sh", "sleep", "true"]

def devices : List Place :=
  [["dev", "null"], ["dev", "zero"]]

def files : List Place :=
  [["etc", "passwd"]]

def tree : FileTree :=
  let installed (directory : Place) : List (Place × Node) :=
    programs.map fun name => (directory ++ [name], .file true)
  ⟨directories.map (·, .directory true) ++ (devices ++ files).map (·, .file false) ++
    installed ["bin"] ++ installed ["usr", "bin"]⟩

end Foreman.Machine
