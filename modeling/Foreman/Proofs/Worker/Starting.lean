import Foreman.Proofs.Session.Act
import Foreman.Worker.ChildWorker

namespace Foreman.ChildWorker

variable {worker started : ChildWorker} {yard after : Yard} {path : Text} {line : Option Text}
  {child : Child}

def executable? (worker : ChildWorker) (parent : Parent) : Option Text :=
  findExecutable parent.tree parent.directory (parent.environment.find? "PATH")
    worker.spec.executable

def spawned (worker : ChildWorker) (parent : Parent) (path : Text) : Child :=
  Child.spawn parent (worker.childSpec parent.environment path)

def turnedAway (yard : Yard) (child : Child) : Yard :=
  { (yard.take child).2.remove (yard.take child).1 with
    errors := yard.errors ++ child.activity.errors }

theorem child?_take (yard : Yard) (child : Child) :
    (yard.take child).2.child? (yard.take child).1 = some child := by
  simp [Yard.take, Yard.child?]

theorem kill_take (yard : Yard) (child : Child) :
    (kill (yard.take child).1).Yields (yard.take child).2 (.ok child.kill)
      (turnedAway yard child) := by
  rw [kill, Act.Yields, Act.get_bind, child?_take]
  exact ⟨rfl, rfl⟩

theorem start_of_missing (h : worker.executable? yard.parent = none) :
    (start worker).Yields yard (.error worker.notFound) yard := by
  unfold start
  refine .within (.bind ⟨rfl, rfl⟩ ?_)
  dsimp only
  rw [executable?] at h
  rw [h]
  exact ⟨rfl, rfl⟩

theorem start_of_ready (hfound : worker.executable? yard.parent = some path)
    (hread : (worker.spawned yard.parent path).readLineWithin yard.patience = (line, child))
    (hready : isReady line) :
    (start worker).Yields yard (.ok { worker with number := some (yard.take child).1 })
      (yard.take child).2 := by
  unfold start
  refine .within (.bind ⟨rfl, rfl⟩ ?_)
  dsimp only
  rw [executable?] at hfound
  rw [spawned] at hread
  rw [hfound]
  dsimp only
  rw [hread]
  refine .bind ⟨rfl, rfl⟩ (.bind ⟨rfl, rfl⟩ ?_)
  dsimp only
  rw [if_pos hready]
  exact .bind ⟨rfl, rfl⟩ ⟨rfl, rfl⟩

theorem start_of_not_ready (hfound : worker.executable? yard.parent = some path)
    (hread : (worker.spawned yard.parent path).readLineWithin yard.patience = (line, child))
    (hready : ¬isReady line) :
    (start worker).Yields yard (.error (worker.notReady line child.kill))
      (turnedAway yard child) := by
  unfold start
  refine .within (.bind ⟨rfl, rfl⟩ ?_)
  dsimp only
  rw [executable?] at hfound
  rw [spawned] at hread
  rw [hfound]
  dsimp only
  rw [hread]
  refine .bind ⟨rfl, rfl⟩ (.bind ⟨rfl, rfl⟩ ?_)
  dsimp only
  rw [if_neg hready]
  exact .bind (kill_take yard child) (.bind ⟨rfl, rfl⟩ ⟨rfl, rfl⟩)

theorem of_start (h : (start worker).Yields yard (.ok started) after) :
    ∃ path line child, worker.executable? yard.parent = some path ∧
      (worker.spawned yard.parent path).readLineWithin yard.patience = (line, child) ∧
      isReady line ∧ started = { worker with number := some (yard.take child).1 } ∧
      after = (yard.take child).2 := by
  cases hfound : worker.executable? yard.parent with
  | none =>
    have hmissing := start_of_missing hfound
    rw [Act.Yields, h.1] at hmissing
    cases hmissing.1
  | some path =>
    cases hread : (worker.spawned yard.parent path).readLineWithin yard.patience with
    | mk line child =>
      by_cases hready : isReady line
      · obtain ⟨hresult, hstate⟩ := start_of_ready hfound hread hready
        rw [h.1] at hresult
        rw [h.2] at hstate
        exact ⟨path, line, child, rfl, hread, hready, Except.ok.inj hresult, hstate⟩
      · have hfailed := (start_of_not_ready hfound hread hready).1
        rw [h.1] at hfailed
        cases hfailed

end Foreman.ChildWorker
