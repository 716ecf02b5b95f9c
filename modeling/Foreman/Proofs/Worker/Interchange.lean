import Foreman.Proofs.Worker.Launching

namespace Foreman

-- The directory of a worker with these constraints, if `directory` is asked for. The empty text
-- asks for none.
def Isolation.directoryFor (spec : Isolation) (directory : Text) : Text :=
  if directory.isEmpty then spec.directory else directory.withSlash

namespace Launcher

variable {σ π : Type} {shop : Workshop σ π}

theorem launchSpec_eq_iff {launcher : Launcher} {entryPoint directory₁ directory₂ : Text}
    {spec : Isolation} :
    launcher.launchSpec entryPoint directory₁ spec =
        launcher.launchSpec entryPoint directory₂ spec ↔
      spec.directoryFor directory₁ = spec.directoryFor directory₂ := by
  constructor
  · exact fun h => congrArg LaunchSpec.directory h
  · intro h
    change { launcher.launchSpec entryPoint directory₁ spec with
      directory := spec.directoryFor directory₁ } = _
    rw [h]
    rfl

theorem asked_build (shop : Workshop σ π) (spec : LaunchSpec) (ledger : Ledger σ) :
    (shop.recorded.build spec ledger).state.asked = ledger.asked ++ [spec] := by
  obtain ⟨made, place, told, hbuild⟩ := (shop.build spec).exists_ends ledger.place
  rcases made with e | _ | p
  · rw [(Workshop.ends_build_error hbuild).yields.2]
  · rw [(Workshop.ends_build_none hbuild).yields.2]
  · rw [(Workshop.ends_build_some hbuild).yields.2]

theorem asked_startOrDiscard (shop : Workshop σ π) (p : Numbered π) (ledger : Ledger σ) :
    (startOrDiscard shop.recorded p ledger).state.asked = ledger.asked := by
  simp only [startOrDiscard, Workshop.recorded, Ledger.inside, Ledger.record, Act.modify, Act.on,
    Act.fail, Act.orElse, bind, Act.bind]
  cases hstart : shop.start p.process ledger.place with
  | mk result place events =>
    cases result with
    | error e =>
      simp only
      cases hdiscard : shop.discard p.process place with
      | mk result place events => cases result <;> rfl
    | ok process => rfl

theorem asked_of_yields {launcher : Launcher} {op : BuildOp} {entryPoint directory : Text}
    {spec : Isolation} {ledger after : Ledger σ} {client : Client (Numbered π)}
    (h : (launcher.startDaemon shop.recorded op entryPoint directory spec).Yields ledger
      (.ok client) after) :
    client.spec = spec ∧
      after.asked = ledger.asked ++ [launcher.launchSpec entryPoint directory spec] := by
  refine ⟨(client_of_yields h).1, ?_⟩
  -- neither the clock nor what is started asks the workshop for more
  obtain ⟨p, -, -, -, _, _, _, ⟨-, rfl⟩, ⟨-, rfl⟩, ⟨-, rfl⟩, ⟨-, rfl⟩, -⟩ := stages_of_yields h
  exact (asked_startOrDiscard shop p _).trans
    (asked_build shop (launcher.launchSpec entryPoint directory spec) ledger)

-- Clients with equal records have workers that were launched from the same, the directory apart.
-- They were launched from the same altogether exactly if the same directory was chosen for both, as
-- it is if the launcher was told the same.
theorem launches_of_equal_records (launcher : Launcher) (entryPoint : Text)
    {op₁ op₂ : BuildOp} {directory₁ directory₂ : Text} {spec₁ spec₂ : Isolation}
    {ledger₁ ledger₂ : Ledger σ} {client₁ client₂ : Client (Numbered π)}
    (h₁ : (launcher.startDaemon shop.recorded op₁ entryPoint directory₁ spec₁ ledger₁).result =
      .ok client₁)
    (h₂ : (launcher.startDaemon shop.recorded op₂ entryPoint directory₂ spec₂ ledger₂).result =
      .ok client₂)
    (hrecords : client₁.spec = client₂.spec) :
    ∃ handed₁ handed₂,
      (launcher.startDaemon shop.recorded op₁ entryPoint directory₁ spec₁ ledger₁).state.asked =
        ledger₁.asked ++ [handed₁] ∧
      (launcher.startDaemon shop.recorded op₂ entryPoint directory₂ spec₂ ledger₂).state.asked =
        ledger₂.asked ++ [handed₂] ∧
      { handed₁ with directory := handed₂.directory } = handed₂ ∧
      (handed₁ = handed₂ ↔
        client₁.spec.directoryFor directory₁ = client₂.spec.directoryFor directory₂) ∧
      (directory₁ = directory₂ → handed₁ = handed₂) := by
  obtain ⟨hspec₁, hasked₁⟩ := asked_of_yields ⟨h₁, rfl⟩
  obtain ⟨hspec₂, hasked₂⟩ := asked_of_yields ⟨h₂, rfl⟩
  obtain rfl : spec₁ = spec₂ := by rw [← hspec₁, ← hspec₂, hrecords]
  refine ⟨_, _, hasked₁, hasked₂, rfl, ?_, fun htold => by rw [htold]⟩
  rw [hspec₁, hspec₂]
  exact launchSpec_eq_iff

-- Two workers are started in the same place, on behalf of different operations.
theorem launches_of_equal_records_in_var :
    let launch (id : Nat) := startDaemon {} Rehearsal.workshop.recorded { id } "w" "/var" {}
      { place := { next := { name := "w" } } }
    ∃ client₁ client₂, (launch 1).result = .ok client₁ ∧ (launch 2).result = .ok client₂ ∧
      client₁.spec = client₂.spec ∧ (launch 1).state.asked = (launch 2).state.asked := by
  intro launch
  have h₁ : (launch 1).result = .ok ⟨{}, some ⟨0, ⟨{ name := "w" }, true⟩⟩, { id := 1 }⟩ := rfl
  have h₂ : (launch 2).result = .ok ⟨{}, some ⟨0, ⟨{ name := "w" }, true⟩⟩, { id := 2 }⟩ := rfl
  obtain ⟨handed₁, handed₂, hasked₁, hasked₂, -, -, hequal⟩ :=
    launches_of_equal_records {} "w" h₁ h₂ rfl
  refine ⟨_, _, h₁, h₂, rfl, ?_⟩
  rw [hasked₁, hasked₂, hequal rfl]

-- Nothing is constrained here, and one of the workers is started elsewhere on request. The records
-- do not tell.
theorem equal_records_of_unequal_launches :
    let launch (directory : Text) := startDaemon {} Rehearsal.workshop.recorded {} "w" directory {}
      { place := { next := { name := "w" } } }
    ∃ client₁ client₂, (launch "").result = .ok client₁ ∧ (launch "/var").result = .ok client₂ ∧
      client₁.spec = client₂.spec ∧
      (launch "").state.asked.map LaunchSpec.directory = [("" : Text)] ∧
      (launch "/var").state.asked.map LaunchSpec.directory = [("/var/" : Text)] ∧
      (launch "").state.asked ≠ (launch "/var").state.asked := by
  intro launch
  refine ⟨_, _, rfl, rfl, rfl, rfl, rfl, ?_⟩
  decide

end Launcher

end Foreman
