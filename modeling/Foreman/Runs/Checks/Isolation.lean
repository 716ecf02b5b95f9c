import Foreman.Runs.Checks.Basic
import Foreman.Worker.Isolation

namespace Foreman.Checks

open Check

def accepted (spec : Isolation) : Act Unit Unit := Act.ofExcept spec.check

def refused (spec : Isolation) : Act Unit Text :=
  expectFailure .invalidArgument (accepted spec)

def sharing (names : List Text) : Isolation :=
  { sharedPackages := NameSet.ofList names }

def isolationChecks : List Check :=
  [ ⟨"empty_spec_is_valid", do
      accepted {}
      expect (Isolation.text {} == "WorkerIsolationSpec()")⟩,
    ⟨"shared_packages", do
      accepted (sharing ["org", "org.example.api", "_internal.v2"])
      let bad : List Text := ["", "org..example", ".org", "org.", "9org", "org.9x", "org-example"]
      bad.forM fun name => do
        expect (occurs ("'" ++ name ++ "'") (← refused (sharing [name])))⟩,
    ⟨"heap_bounds", do
      accepted { minHeap := Nat.pow 2 20 }
      accepted { minHeap := Nat.pow 2 20, maxHeap := Nat.pow 2 30 }
      accepted { minHeap := Nat.pow 2 30, maxHeap := Nat.pow 2 30 }
      let message ← refused { minHeap := Nat.pow 2 31, maxHeap := Nat.pow 2 30 }
      expect (occurs "2G" message && occurs "1G" message)⟩,
    ⟨"code_path_and_env", do
      let _ ← refused { codePath := ["/opt/lib", ""] }
      let spec : Isolation := { codePath := ["/opt/lib"] }
      let _ ← refused { spec with environment := Table.ofList [("A=B", "x")] }
      accepted { spec with environment := Table.ofList [("A_B", "x=y")] }⟩,
    ⟨"equality", do
      let spec : Isolation :=
        { sharing ["org.example"] with codePath := ["/opt/a", "/opt/b"], maxHeap := Nat.pow 2 30 }
      expect (spec != { spec with codePath := ["/opt/b", "/opt/a"] })
      expect (spec != { spec with directory := "/tmp/" })⟩,
    ⟨"printing", do
      let spec : Isolation := { maxHeap := Nat.pow 2 30, directory := "/tmp/" }
      expect (spec.text == "WorkerIsolationSpec(max_heap=1G,cwd=/tmp)")⟩ ]

def isolation : Suite := { checks := isolationChecks }

end Foreman.Checks
