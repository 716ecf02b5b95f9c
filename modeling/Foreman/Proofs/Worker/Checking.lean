import Foreman.Proofs.Session.Act
import Foreman.Proofs.Text.Table
import Foreman.Proofs.Worker.Packages

namespace Foreman.Isolation

variable {spec : Isolation} {failure : Failure} {names : List Text} {p : Text → Bool} {bad : Text}

theorem find?_not_eq_none_iff :
    names.find? (fun name => !p name) = none ↔ ∀ name ∈ names, p name := by
  simp only [List.find?_eq_none, Bool.not_eq_true', Bool.not_eq_false]

theorem least_of_find? (hsorted : names.Pairwise (· < ·))
    (h : names.find? (fun name => !p name) = some bad) :
    bad ∈ names ∧ ¬p bad ∧ ∀ other ∈ names, ¬p other → bad = other ∨ bad < other := by
  obtain ⟨hbad, front, back, rfl, hfront⟩ := List.find?_eq_some_iff_append.mp h
  obtain ⟨-, hback, -⟩ := List.pairwise_append.mp hsorted
  refine ⟨List.mem_append_right front List.mem_cons_self, by simpa using hbad, ?_⟩
  intro other hother hwrong
  rcases List.mem_append.mp hother with hbefore | hrest
  · exact absurd (by simpa using hfront other hbefore) hwrong
  · rcases List.mem_cons.mp hrest with rfl | hafter
    · exact .inl rfl
    · exact .inr ((List.pairwise_cons.mp hback).1 other hafter)

theorem checkPackages_eq_ok_iff :
    spec.checkPackages = .ok () ↔ ∀ name ∈ spec.sharedPackages.toList, isPackageName name := by
  rw [← find?_not_eq_none_iff]
  unfold checkPackages
  cases spec.sharedPackages.toList.find? fun name => !isPackageName name with
  | some bad => exact iff_of_false nofun nofun
  | none => exact iff_of_true rfl rfl

theorem checkCodePath_eq_ok_iff :
    spec.checkCodePath = .ok () ↔ ∀ location ∈ spec.codePath, location ≠ [] := by
  unfold checkCodePath
  split
  case isTrue hempty =>
    obtain ⟨location, hlocation, hnil⟩ := List.any_eq_true.mp hempty
    exact iff_of_false nofun fun h => h location hlocation (List.isEmpty_iff.mp hnil)
  case isFalse hfull =>
    refine iff_of_true rfl fun location hlocation hnil => hfull ?_
    exact List.any_eq_true.mpr ⟨location, hlocation, List.isEmpty_iff.mpr hnil⟩

theorem checkHeap_eq_ok_iff :
    spec.checkHeap = .ok () ↔
      (spec.minHeap ≠ 0 → spec.maxHeap ≠ 0 → spec.minHeap ≤ spec.maxHeap) := by
  unfold checkHeap
  split
  case isTrue hlarger =>
    simp only [Bool.and_eq_true, bne_iff_ne, decide_eq_true_eq] at hlarger
    obtain ⟨⟨hmin, hmax⟩, hlt⟩ := hlarger
    exact iff_of_false nofun fun h => absurd (h hmin hmax) (Nat.not_le.mpr hlt)
  case isFalse hfits =>
    simp only [Bool.and_eq_true, bne_iff_ne, decide_eq_true_eq] at hfits
    exact iff_of_true rfl fun hmin hmax => Nat.not_lt.mp fun hlt => hfits ⟨⟨hmin, hmax⟩, hlt⟩

theorem checkEnvironment_eq_ok_iff :
    spec.checkEnvironment = .ok () ↔ ∀ name ∈ spec.environment.keys, isVariableName name := by
  rw [← find?_not_eq_none_iff]
  unfold checkEnvironment
  cases spec.environment.keys.find? fun name => !isVariableName name with
  | some bad => exact iff_of_false nofun nofun
  | none => exact iff_of_true rfl rfl

theorem isVariableName_iff {name : Text} :
    isVariableName name ↔ name ≠ [] ∧ ('=' : UInt8) ∉ name := by
  rw [isVariableName, Bool.and_eq_true_iff, Bool.not_eq_true', Bool.not_eq_true',
    List.isEmpty_eq_false_iff, ← Bool.not_eq_true, List.contains_iff_mem]

theorem check_eq_ok_iff :
    spec.check = .ok () ↔
      spec.checkPackages = .ok () ∧ spec.checkCodePath = .ok () ∧ spec.checkHeap = .ok () ∧
        spec.checkEnvironment = .ok () := by
  constructor
  · intro h
    obtain ⟨_, hpackages, h⟩ := bind_eq_ok_iff.mp h
    obtain ⟨_, hpath, h⟩ := bind_eq_ok_iff.mp h
    obtain ⟨_, hheap, henvironment⟩ := bind_eq_ok_iff.mp h
    exact ⟨hpackages, hpath, hheap, henvironment⟩
  · rintro ⟨hpackages, hpath, hheap, henvironment⟩
    rw [check, hpackages, hpath, hheap, henvironment]
    rfl

-- Constraints that a worker can be started with. A bound that is not set goes with every other one.
structure Sound (spec : Isolation) : Prop where
  packages : ∀ name ∈ spec.sharedPackages.toList, IsPackage name
  locations : ∀ location ∈ spec.codePath, location ≠ []
  bounds : spec.minHeap ≠ 0 → spec.maxHeap ≠ 0 → spec.minHeap ≤ spec.maxHeap
  environment : ∀ name ∈ spec.environment.keys, name ≠ [] ∧ ('=' : UInt8) ∉ name

theorem check_eq_ok_iff_sound : spec.check = .ok () ↔ spec.Sound := by
  rw [check_eq_ok_iff, checkPackages_eq_ok_iff, checkCodePath_eq_ok_iff, checkHeap_eq_ok_iff,
    checkEnvironment_eq_ok_iff]
  simp only [isPackageName_iff, isVariableName_iff]
  constructor
  · rintro ⟨hpackages, hpath, hheap, henvironment⟩
    exact ⟨hpackages, hpath, hheap, henvironment⟩
  · rintro ⟨hpackages, hpath, hheap, henvironment⟩
    exact ⟨hpackages, hpath, hheap, henvironment⟩

-- Whatever is wrong, it is an argument that is to blame.
def BlamesArgument (outcome : Except Failure Unit) : Prop :=
  ∀ failure, outcome = .error failure → ∃ message, failure = .invalidArgument message

namespace BlamesArgument

theorem ok : BlamesArgument (.ok ()) := nofun

theorem error (message : Text) : BlamesArgument (.error (.invalidArgument message)) := by
  rintro failure ⟨⟩
  exact ⟨message, rfl⟩

theorem bind {first : Except Failure Unit} {next : Unit → Except Failure Unit}
    (hfirst : BlamesArgument first) (hnext : ∀ a, BlamesArgument (next a)) :
    BlamesArgument (first >>= next) := by
  intro failure h
  rcases bind_eq_error h with hfailed | ⟨a, -, hrest⟩
  · exact hfirst failure hfailed
  · exact hnext a failure hrest

end BlamesArgument

theorem blamesArgument_check (spec : Isolation) : BlamesArgument spec.check := by
  have hpackages : BlamesArgument spec.checkPackages := by
    unfold checkPackages
    split
    exacts [.error _, .ok]
  have hpath : BlamesArgument spec.checkCodePath := by
    unfold checkCodePath
    split
    exacts [.error _, .ok]
  have hheap : BlamesArgument spec.checkHeap := by
    unfold checkHeap
    split
    exacts [.error _, .ok]
  have henvironment : BlamesArgument spec.checkEnvironment := by
    unfold checkEnvironment
    split
    exacts [.error _, .ok]
  exact hpackages.bind fun _ => hpath.bind fun _ => hheap.bind fun _ => henvironment

-- Packages come before everything else, the least name first.
theorem check_of_bad_package (h : ¬∀ name ∈ spec.sharedPackages.toList, IsPackage name) :
    ∃ bad ∈ spec.sharedPackages.toList, ¬IsPackage bad ∧
      (∀ other ∈ spec.sharedPackages.toList, ¬IsPackage other → bad = other ∨ bad < other) ∧
      spec.check = .error (.invalidArgument ("bad shared package name '" ++ bad ++ "'")) := by
  simp only [← isPackageName_iff] at h ⊢
  cases hfind : spec.sharedPackages.toList.find? fun name => !isPackageName name with
  | none => exact absurd (find?_not_eq_none_iff.mp hfind) h
  | some bad =>
    obtain ⟨hmem, hwrong, hleast⟩ := least_of_find? spec.sharedPackages.sorted_keys hfind
    refine ⟨bad, hmem, hwrong, hleast, ?_⟩
    rw [check, checkPackages, hfind]
    rfl

-- The check accepts exactly the constraints that are sound, where a name is one of a package if the
-- pattern of such names matches the whole of it. Everything else is an invalid argument. The least
-- wrong name of a package is told in front of all that is wrong besides.
theorem check_exact (spec : Isolation) :
    (spec.check = .ok () ↔ spec.Sound) ∧
    (∀ name, name ∈ packagePattern.matches' ↔ IsPackage name) ∧
    (∀ failure, spec.check = .error failure → ∃ message, failure = .invalidArgument message) ∧
    ((¬∀ name ∈ spec.sharedPackages.toList, IsPackage name) →
      ∃ bad ∈ spec.sharedPackages.toList, ¬IsPackage bad ∧
        (∀ other ∈ spec.sharedPackages.toList, ¬IsPackage other → bad = other ∨ bad < other) ∧
        spec.check = .error (.invalidArgument ("bad shared package name '" ++ bad ++ "'"))) :=
  ⟨check_eq_ok_iff_sound, fun _ => mem_packagePattern_iff, blamesArgument_check spec,
    check_of_bad_package⟩

-- Two names are wrong, and so are a location and the bounds. The lesser name is told.
theorem check_exact_of_two_bad_names :
    let spec : Isolation :=
      { sharedPackages := .ofList ["org.2d", "org.api", "com..x"], codePath := [[]], minHeap := 2,
        maxHeap := 1 }
    let told : Failure := .invalidArgument "bad shared package name 'com..x'"
    (¬∀ name ∈ spec.sharedPackages.toList, IsPackage name) ∧ ¬spec.Sound ∧
      spec.check = .error told ∧ (∃ message, told = .invalidArgument message) ∧
      ∃ bad ∈ spec.sharedPackages.toList, ¬IsPackage bad ∧
        ∀ other ∈ spec.sharedPackages.toList, ¬IsPackage other → bad = other ∨ bad < other := by
  intro spec told
  have htold : spec.check = .error told := rfl
  have hbad : ¬∀ name ∈ spec.sharedPackages.toList, IsPackage name := fun h =>
    absurd (isPackageName_iff.mpr (h "com..x" (by decide))) (by decide)
  obtain ⟨hsound, -, hblames, hleast⟩ := check_exact spec
  obtain ⟨bad, hmem, hwrong, hleast, -⟩ := hleast hbad
  refine ⟨hbad, fun h => ?_, htold, hblames told htold, bad, hmem, hwrong, hleast⟩
  rw [hsound.mpr h] at htold
  cases htold

end Foreman.Isolation
