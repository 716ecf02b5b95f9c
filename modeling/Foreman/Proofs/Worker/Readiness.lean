import Foreman.Proofs.System.Child
import Foreman.Proofs.Worker.Starting

namespace Foreman

namespace Yard

theorem child?_remove_self (yard : Yard) (number : Nat) :
    (yard.remove number).child? number = none := by
  rw [child?, List.lookup_eq_none_iff]
  intro e he
  have hne := (List.mem_filter.mp he).2
  rwa [bne_comm] at hne

theorem child?_remove_other (yard : Yard) {number other : Nat} (h : other ≠ number) :
    (yard.remove number).child? other = yard.child? other := by
  unfold child? remove
  dsimp only
  induction yard.running with
  | nil => rfl
  | cons e rest ih =>
    by_cases he : e.1 = number
    · have hother : (other == e.1) = false := beq_eq_false_iff_ne.mpr (he ▸ h)
      rw [List.filter_cons_of_neg (by simpa using he), ih, List.lookup_cons, hother]
    · rw [List.filter_cons_of_pos (by simpa using he), List.lookup_cons, List.lookup_cons, ih]

theorem child?_take_other (yard : Yard) (child : Child) {other : Nat}
    (h : other ≠ (yard.take child).1) : (yard.take child).2.child? other = yard.child? other := by
  have hother : (other == yard.started + 2) = false := beq_eq_false_iff_ne.mpr h
  change ((_, child) :: yard.running).lookup other = _
  rw [List.lookup_cons, hother]
  rfl

end Yard

namespace ChildWorker

variable {yard : Yard} {path : Text}

-- A process with this number is not there any more, and whoever has the number reaches nobody. The
-- other processes are as they were before.
structure Gone (number : Nat) (before after : Yard) : Prop where
  child : after.child? number = none
  others : ∀ other ≠ number, after.child? other = before.child? other
  request : ∀ holder : ChildWorker, holder.number = some number → ∀ line,
    (request holder line after).state = after
  response : ∀ holder : ChildWorker, holder.number = some number →
    (response holder after).result = .ok none

theorem gone_of_child? {number : Nat} {before after : Yard} (hchild : after.child? number = none)
    (hothers : ∀ other ≠ number, after.child? other = before.child? other) :
    Gone number before after := by
  refine ⟨hchild, hothers, fun holder hnumber line => ?_, fun holder hnumber => ?_⟩
  · rw [ChildWorker.request, Act.modify, hnumber, Option.bind_some, hchild]
    rfl
  · rw [ChildWorker.response, Act.get_bind, hnumber, Option.bind_some, hchild]
    rfl

theorem gone_turnedAway (yard : Yard) (child : Child) :
    Gone (yard.take child).1 yard (turnedAway yard child) :=
  gone_of_child? (Yard.child?_remove_self _ _) fun _ hother =>
    (Yard.child?_remove_other _ hother).trans (Yard.child?_take_other yard child hother)

theorem isReady_iff {said : Option Text} :
    isReady said ↔ ∃ line, said = some line ∧ readyWord <+: line := by
  cases said with
  | none => exact iff_of_false Bool.false_ne_true nofun
  | some line => simp [isReady, List.isPrefixOf_iff_prefix]

-- A new worker whose executable is found is started successfully exactly if its first line becomes
-- known while it is waited for, and says that it is ready. The line ends with a line feed or, if it
-- is not empty, with the output. Any other first line, and an output that ends without a line, is a
-- failure: it tells what the worker said and how it ended when it was killed, the worker has no
-- number, and its process is gone.
theorem readiness (spec : LaunchSpec) (name : Text)
    (hfound : (⟨spec, name, none⟩ : ChildWorker).executable? yard.parent = some path)
    (hsteady : ((⟨spec, name, none⟩ : ChildWorker).spawned yard.parent path).Steady) :
    let worker : ChildWorker := ⟨spec, name, none⟩
    let process := worker.spawned yard.parent path
    ((∃ started, (start worker yard).result = .ok started) ↔
      ∃ n < yard.patience, ∃ line, (process.later n).activity.FirstLine (some line) ∧
        readyWord <+: line) ∧
    ∀ n < yard.patience, ∀ said, (process.later n).activity.FirstLine said →
      (∀ line, said = some line → ¬readyWord <+: line) →
      ∃ ending, (∃ m ≤ n, ending = (process.later m).kill) ∧
        (start worker yard).result = .error (worker.notReady said ending) ∧
        workshop.pid worker = 0 ∧
        Gone (yard.started + 2) yard (start worker yard).state := by
  intro worker process
  have htaken : process.taken = 0 := Child.taken_spawn _ _
  refine ⟨⟨?started, ?ready⟩, ?failed⟩
  case started =>
    rintro ⟨started, hstart⟩
    obtain ⟨path', line, child, hfound', hread, hready, -, -⟩ := of_start ⟨hstart, rfl⟩
    obtain rfl := Option.some.inj (hfound.symm.trans hfound')
    obtain ⟨said, rfl, hprefix⟩ := isReady_iff.mp hready
    obtain ⟨n, hn, hfirst⟩ := Child.firstLine_of_read htaken hread
    exact ⟨n, hn, said, hfirst, hprefix⟩
  case ready =>
    rintro ⟨n, hn, line, hfirst, hprefix⟩
    obtain ⟨m, -, taken, hread⟩ := Child.read_of_firstLine htaken hsteady hfirst hn
    exact ⟨_, (start_of_ready hfound hread (isReady_iff.mpr ⟨line, rfl, hprefix⟩)).1⟩
  case failed =>
    intro n hn said hfirst hother
    have hready : ¬isReady said := fun h =>
      let ⟨line, hsaid, hprefix⟩ := isReady_iff.mp h
      hother line hsaid hprefix
    obtain ⟨m, hm, taken, hread⟩ := Child.read_of_firstLine htaken hsteady hfirst hn
    obtain ⟨hresult, hstate⟩ := start_of_not_ready hfound hread hready
    refine ⟨_, ⟨m, hm, rfl⟩, hresult, rfl, ?_⟩
    rw [hstate]
    exact gone_turnedAway yard _

-- A worker that needs a pause to say that it is ready.
theorem readiness_after_pause :
    let program : Program := fun _ exposure =>
      match exposure.pauses with
      | 0 => { output := "rea" }
      | _ + 1 => { output := "ready 1\n" }
    let yard : Yard := { parent := ⟨⟨[(["w"], .file true)]⟩, fun _ => program, [], ∅⟩ }
    let spec : LaunchSpec := { baseName := "w", role := "r", protocol := "p", executable := "/w" }
    let worker : ChildWorker := ⟨spec, "w 1", none⟩
    worker.executable? yard.parent = some ("/w" : Text) ∧ (worker.spawned yard.parent "/w").Steady ∧
      ∃ started, (start worker yard).result = .ok started := by
  intro program yard spec worker
  have hfound : worker.executable? yard.parent = some ("/w" : Text) := by decide
  have hlater : ∀ n, ((worker.spawned yard.parent "/w").later (n + 1)).activity =
      { output := "ready 1\n" } := fun _ => rfl
  have hsteady : (worker.spawned yard.parent "/w").Steady := by
    refine ⟨fun m n hmn => ?_, fun m n hmn hsilent => ?_⟩
    · cases n with
      | zero =>
        obtain rfl := Nat.le_zero.mp hmn
        exact List.prefix_rfl
      | succ n =>
        rw [hlater]
        cases m with
        | zero => exact ⟨"dy 1\n", by decide⟩
        | succ m => simp only [hlater, List.prefix_rfl]
    · cases m with
      | zero => cases hsilent
      | succ m => cases hsilent
  have hline : ((worker.spawned yard.parent "/w").later 1).activity.FirstLine
      (some ("ready 1" : Text)) := @Activity.FirstLine.whole _ _ [] (by decide) (by decide)
  exact ⟨hfound, hsteady,
    (readiness spec "w 1" hfound hsteady).1.mpr ⟨1, by decide, _, hline, by decide⟩⟩

-- A worker that dies while it says that it is ready. It never ends a line, and is started all the
-- same.
theorem started_without_line :
    let yard : Yard :=
      { parent := ⟨⟨[(["w"], .file true)]⟩, fun _ _ _ => .exited 5 "ready" [], [], ∅⟩ }
    let spec : LaunchSpec := { baseName := "w", role := "r", protocol := "p", executable := "/w" }
    let worker : ChildWorker := ⟨spec, "w 1", none⟩
    worker.executable? yard.parent = some ("/w" : Text) ∧ (worker.spawned yard.parent "/w").Steady ∧
      (∀ n, ('\n' : UInt8) ∉ ((worker.spawned yard.parent "/w").later n).activity.output) ∧
      ∃ started, (start worker yard).result = .ok started := by
  intro yard spec worker
  have hfound : worker.executable? yard.parent = some ("/w" : Text) := by decide
  have hactivity : ∀ n, ((worker.spawned yard.parent "/w").later n).activity =
      .exited 5 "ready" [] := fun _ => rfl
  have hfirst : ((worker.spawned yard.parent "/w").later 0).activity.FirstLine
      (some (Activity.exited 5 "ready" []).output) := by
    rw [hactivity]
    exact .last rfl (by decide) (by decide)
  have hsteady : (worker.spawned yard.parent "/w").Steady := by
    refine ⟨fun m n _ => ?_, fun m n _ _ => ?_⟩
    · simp only [hactivity, List.prefix_rfl]
    · rw [hactivity, hactivity]
      exact ⟨rfl, rfl⟩
  obtain ⟨m, -, taken, hread⟩ :=
    Child.read_of_firstLine rfl hsteady hfirst (Nat.succ_pos 999)
  refine ⟨hfound, hsteady, fun n => ?_, _, (start_of_ready hfound hread (by decide)).1⟩
  rw [hactivity]
  decide

end ChildWorker

end Foreman
