import Foreman.Runs.Shell.Run
import Foreman.System.Child

namespace Foreman.Machine

-- What happens when a file is executed. A file of no known program does nothing.
def programAt (place : Place) : Program :=
  let name := place.getLastD []
  if name = "sh" then Shell.program
  else
    match Tools.named name with
    | some body => Exec.program body
    | none => fun _ _ => .exited 0 [] []

-- A process that starts others from a directory of its own, with variables in addition to the
-- usual ones.
def parent (added : List (Text × Text)) : Parent where
  tree := tree
  programAt := programAt
  directory := home
  environment :=
    let usual : Environment :=
      Table.ofList [("PATH", "/usr/bin:/bin"), ("TZ", "UTC0"), ("LC_ALL", "C")]
    usual.insertAll added

end Foreman.Machine
