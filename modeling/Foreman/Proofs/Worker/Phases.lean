import Foreman.Proofs.Session.Messages
import Foreman.Proofs.Worker.Checking
import Foreman.Proofs.Worker.Launching

namespace Foreman

variable {σ π : Type} {shop : Workshop σ π} {launcher : Launcher} {op : BuildOp}
  {entryPoint directory : Text} {spec : Isolation} {place : σ}

namespace Launcher

-- What a process is built from is what was asked for. Only the level is the launcher's own.
structure Carries (launcher : Launcher) (entryPoint directory : Text) (spec : Isolation)
    (handed : LaunchSpec) : Prop where
  executable : handed.executable = entryPoint
  codePath : handed.codePath = spec.codePath
  sharedPackages : handed.sharedPackages = spec.sharedPackages
  bounds : handed.minHeap = spec.minHeap ∧ handed.maxHeap = spec.maxHeap
  arguments : handed.arguments = spec.arguments
  directory : handed.directory = if directory = [] then spec.directory else directory.withSlash
  environment : handed.environment = spec.environment
  level : handed.level = launcher.level

theorem carries_launchSpec (launcher : Launcher) (entryPoint directory : Text)
    (spec : Isolation) :
    Carries launcher entryPoint directory spec (launcher.launchSpec entryPoint directory spec) where
  executable := rfl
  codePath := rfl
  sharedPackages := rfl
  bounds := ⟨rfl, rfl⟩
  arguments := rfl
  directory := by simp only [launchSpec, List.isEmpty_iff]
  environment := rfl
  level := rfl

theorem ends_of_invalid (h : entryPoint = [] ∨ ¬spec.Sound) :
    ∃ message, (launcher.startDaemon shop op entryPoint directory spec).Ends place
      (.error (.invalidArgument message)) place [] := by
  by_cases hentry : entryPoint = []
  · subst hentry
    exact ⟨_, ends_of_no_entryPoint⟩
  cases hcheck : spec.check with
  | ok => exact absurd (Isolation.check_eq_ok_iff_sound.mp hcheck) (h.resolve_left hentry)
  | error e =>
    obtain ⟨message, rfl⟩ := Isolation.blamesArgument_check spec e hcheck
    exact ⟨message, ends_of_check_error hentry hcheck⟩

theorem Launches.asked {ledger after : Ledger σ} {result : Except Failure (Client (Numbered π))}
    (h : launcher.Launches op entryPoint directory spec ledger result after)
    (hentry : entryPoint ≠ []) (hcheck : spec.check = .ok ()) :
    after.asked = ledger.asked ++ [launcher.launchSpec entryPoint directory spec] := by
  cases h with
  | invalid hinvalid =>
    rw [hcheck] at hinvalid
    exact absurd hinvalid (not_or_intro hentry nofun)
  | unbuilt | refused | started => rfl

end Launcher

-- The ledger after one more process was asked for, which has come as far as this in its life. It was
-- not built if its life is empty.
def Ledger.reached (ledger : Ledger σ) (handed : LaunchSpec) (life : List Deed) (place : σ) :
    Ledger σ where
  place := place
  asked := ledger.asked ++ [handed]
  built := ledger.built + if life = [] then 0 else 1
  deeds := ledger.deeds ++ life.map (ledger.built, ·)

theorem Ledger.reached_nil (ledger : Ledger σ) (handed : LaunchSpec) (place : σ) :
    ledger.reached handed [] place = { ledger with place, asked := ledger.asked ++ [handed] } := by
  simp only [reached, if_true, Nat.add_zero, List.map_nil, List.append_nil]

namespace Launcher

-- A request that is not valid is turned down at once, as if it had not been made. A valid one asks
-- the workshop once, for what was asked for. From there on the outcome goes by what the workshop
-- does. A process that cannot be started is given up, and its failure is the answer. The launcher
-- says one thing in front of the start and one thing after it. In between stand the messages of the
-- workshop, if it has any. Which messages are shown is up to the level of the session.
theorem phases_of_launch (h : shop.Dependable) (launcher : Launcher) (op : BuildOp)
    (entryPoint directory : Text) (spec : Isolation) (ledger : Ledger σ) :
    let call := launcher.startDaemon shop.recorded op entryPoint directory spec
    (entryPoint = [] ∨ ¬spec.Sound →
      ∃ message, call.Ends ledger (.error (.invalidArgument message)) ledger []) ∧
    (entryPoint ≠ [] → spec.Sound →
      ∃ handed, Carries launcher entryPoint directory spec handed ∧
        (call ledger).state.asked = ledger.asked ++ [handed] ∧
        (∀ e place told, (shop.build handed).Ends ledger.place (.error e) place told →
          call.Ends ledger (.error e) (ledger.reached handed [] place) told) ∧
        (∀ place told, (shop.build handed).Ends ledger.place (.ok none) place told →
          ∃ message, call.Ends ledger (.error (.ofKind .workerStartFailure message))
            (ledger.reached handed [] place) told) ∧
        ∀ p place told, (shop.build handed).Ends ledger.place (.ok (some p)) place told →
          ∃ before begun ticked, shop.clock.Ends place (.ok before) begun ticked ∧
            (∀ e tried said, (shop.start p).Ends begun (.error e) tried said →
              ∃ left last, (shop.discard p).Ends tried (.ok ()) left last ∧
                call.Ends ledger (.error e)
                  (ledger.reached handed [.built, .refused, .discarded] left)
                  (told ++ startingNotice spec :: (ticked ++ (said ++ last)))) ∧
            ∀ started tried said, (shop.start p).Ends begun (.ok started) tried said →
              ∃ now left last, shop.clock.Ends tried (.ok now) left last ∧
                call.Ends ledger (.ok ⟨spec, some ⟨ledger.built, started⟩, op⟩)
                  (ledger.reached handed [.built, .started] left)
                  (told ++ startingNotice spec :: (ticked ++ (said ++ (last ++
                    [startedNotice spec (shop.name started) (now.since before)]))))) ∧
    ∀ session : Session, (∀ level, .levelSet level ∉ (call ledger).events) →
      (session.receiveAll (call ledger).events).2 =
        (call ledger).reports.flatMap session.shows := by
  intro call
  refine ⟨ends_of_invalid, fun hentry hsound => ?_, fun session => Session.shown_of_steady⟩
  have hcheck := Isolation.check_eq_ok_iff_sound.mpr hsound
  refine ⟨_, carries_launchSpec launcher entryPoint directory spec,
    (launcher.launches h op entryPoint directory spec ledger).asked hentry hcheck, ?_, ?_, ?_⟩
  · intro e place told hbuild
    rw [Ledger.reached_nil]
    exact ends_of_build_error hentry hcheck (Workshop.ends_build_error hbuild)
  · intro place told hbuild
    rw [Ledger.reached_nil]
    exact ⟨_, ends_of_unbuilt hentry hcheck (Workshop.ends_build_none hbuild)⟩
  · intro p place told hbuild
    obtain ⟨before, begun, ticked, hclock⟩ := h.ends_clock place
    refine ⟨before, begun, ticked, hclock, ?_, ?_⟩
    · intro e tried said hstart
      obtain ⟨left, last, hdiscard⟩ := h.ends_discard p tried
      exact ⟨left, last, hdiscard, ends_of_refused hentry hcheck hbuild hclock hstart hdiscard⟩
    · intro started tried said hstart
      obtain ⟨now, left, last, hnow⟩ := h.ends_clock tried
      exact ⟨now, left, last, hnow, ends_of_launched hentry hcheck hbuild hclock hstart hnow⟩

-- The worker does not start. It was asked for and built, and it is given up. Nothing is said after
-- the message in front of the start.
theorem phases_of_failing_start :
    let late : Failure := .ofKind .workerStartFailure "late"
    let ledger : Ledger Rehearsal := { place := { next := { name := "w", fate := .failing late } } }
    let call := startDaemon {} Rehearsal.workshop.recorded {} "w" "" {}
    Rehearsal.workshop.Dependable ∧
      (∃ handed left, Carries {} "w" "" {} handed ∧
        call.Ends ledger (.error late)
          (ledger.reached handed [.built, .refused, .discarded] left) [startingNotice {}]) ∧
      ∀ session : Session, (session.receiveAll (call ledger).events).2 =
        session.shows (startingNotice {}) := by
  intro late ledger call
  obtain ⟨-, hvalid, hshown⟩ := phases_of_launch Rehearsal.dependable {} {} "w" "" {} ledger
  obtain ⟨handed, hcarries, -, -, -, hbuilt⟩ :=
    hvalid (by decide) (Isolation.check_eq_ok_iff_sound.mp rfl)
  obtain ⟨_, _, _, ⟨⟨-, rfl⟩, rfl⟩, hrefused, -⟩ := hbuilt _ _ _ ⟨⟨rfl, rfl⟩, rfl⟩
  obtain ⟨left, _, ⟨-, rfl⟩, hends⟩ := hrefused late _ _ ⟨⟨rfl, rfl⟩, rfl⟩
  refine ⟨Rehearsal.dependable, ⟨handed, left, hcarries, hends⟩, fun session => ?_⟩
  have hsteady (level : LogLevel) : Event.levelSet level ∉ (call ledger).events := by
    cases level <;> decide
  rw [hshown session hsteady, hends.reports]
  exact List.flatMap_singleton _ _

end Launcher

end Foreman
