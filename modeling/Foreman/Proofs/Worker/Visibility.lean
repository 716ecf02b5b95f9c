import Foreman.Proofs.Text.Split
import Foreman.Proofs.Worker.Checking
import Foreman.Proofs.Worker.Environment
import Foreman.Worker.Client

namespace Foreman

namespace Isolation

variable {name : Text}

theorem byte_of_isDotted {inside : Bool} (h : isDotted inside name) :
    ∀ c ∈ name, c = '.' ∨ isNameByte c := by
  induction name generalizing inside with
  | nil => exact fun _ hc => absurd hc List.not_mem_nil
  | cons first rest ih =>
    unfold isDotted at h
    intro c hc
    split at h
    case isTrue hpoint =>
      rcases List.mem_cons.mp hc with rfl | hrest
      · exact .inl hpoint
      · exact ih (Bool.and_eq_true_iff.mp h).2 c hrest
    case isFalse =>
      obtain ⟨hfirst, hdotted⟩ := Bool.and_eq_true_iff.mp h
      rcases List.mem_cons.mp hc with rfl | hrest
      · exact .inr (Bool.and_eq_true_iff.mp hfirst).1
      · exact ih hdotted c hrest

theorem comma_not_mem_of_isPackageName (h : isPackageName name) : (',' : UInt8) ∉ name := by
  intro hcomma
  rcases byte_of_isDotted h _ hcomma with hpoint | hname
  · exact absurd hpoint (by decide)
  · exact absurd hname (by decide)

theorem ne_nil_of_isPackageName (h : isPackageName name) : name ≠ [] := by
  rintro rfl
  cases h

end Isolation

namespace LaunchSpec

theorem joinFilled_eq_join {sep : UInt8} {pieces : List Text} (h : ∀ piece ∈ pieces, piece ≠ []) :
    joinFilled sep pieces = Text.join sep pieces := by
  cases pieces with
  | nil => rfl
  | cons piece rest =>
    have hfull : ¬piece.isEmpty := fun hempty =>
      h piece List.mem_cons_self (List.isEmpty_iff.mp hempty)
    rw [joinFilled, List.dropWhile_cons_of_neg hfull]

theorem find?_constant {spec : LaunchSpec} {e : Text × Text} (he : e ∈ spec.constants) :
    spec.launchEnvironment.find? e.1 = some e.2 := by
  rw [find?_launchEnvironment, lookup_contract_of_constant he, Option.some_or]

theorem find?_codePath (spec : LaunchSpec) :
    spec.launchEnvironment.find? "EXECORE_CODE_PATH" = some (joinFilled ':' spec.codePath) := by
  have htold : (("EXECORE_CODE_PATH" : Text), joinFilled ':' spec.codePath) ∈ spec.constants := by
    simp [constants]
  exact find?_constant htold

theorem find?_sharedPackages (spec : LaunchSpec) :
    spec.launchEnvironment.find? "EXECORE_SHARED_PKGS" =
      some (joinFilled ',' spec.sharedPackages.toList) := by
  have htold : (("EXECORE_SHARED_PKGS" : Text), joinFilled ',' spec.sharedPackages.toList) ∈
      spec.constants := by
    simp [constants]
  exact find?_constant htold

end LaunchSpec

namespace Launcher

-- A worker that is started with accepted constraints finds its locations in their order, where
-- those that hold a colon are in pieces. So it finds what was asked for exactly if none does.
theorem code_path_of_accepted (launcher : Launcher) (entryPoint directory : Text) {spec : Isolation}
    (haccepted : spec.check = .ok ()) (hne : spec.codePath ≠ []) :
    ∃ value,
      (launcher.launchSpec entryPoint directory spec).launchEnvironment.find?
        "EXECORE_CODE_PATH" = some value ∧
      Text.split ':' value = spec.codePath.flatMap (Text.split ':') ∧
      (Text.split ':' value = spec.codePath ↔ ∀ location ∈ spec.codePath, (':' : UInt8) ∉ location) := by
  obtain ⟨-, hpath, -, -⟩ := Isolation.check_eq_ok_iff.mp haccepted
  have hfull := Isolation.checkCodePath_eq_ok_iff.mp hpath
  refine ⟨Text.join ':' spec.codePath, ?_, Text.split_join_eq_flatMap hne,
    Text.split_join_eq_iff hne⟩
  rw [LaunchSpec.find?_codePath]
  exact congrArg some (LaunchSpec.joinFilled_eq_join hfull)

theorem code_path_of_two_locations :
    let spec : Isolation := { codePath := ["/opt/lib", "/usr/lib"] }
    spec.check = .ok () ∧ spec.codePath ≠ [] ∧ ∃ value,
      (launchSpec {} "w" "" spec).launchEnvironment.find? "EXECORE_CODE_PATH" = some value ∧
      Text.split ':' value = spec.codePath := by
  intro spec
  have haccepted : spec.check = .ok () := rfl
  have hne : spec.codePath ≠ [] := List.cons_ne_nil _ _
  obtain ⟨value, hvalue, -, hsplit⟩ := code_path_of_accepted {} "w" "" haccepted hne
  exact ⟨haccepted, hne, value, hvalue, hsplit.mpr (by decide)⟩

-- One location with a colon is accepted, and the worker finds two.
theorem code_path_of_location_with_colon :
    let spec : Isolation := { codePath := ["/opt/a:/opt/b"] }
    spec.check = .ok () ∧ spec.codePath ≠ [] ∧
      (launchSpec {} "w" "" spec).launchEnvironment.find? "EXECORE_CODE_PATH" =
        some ("/opt/a:/opt/b" : Text) ∧
      Text.split ':' "/opt/a:/opt/b" = (["/opt/a", "/opt/b"] : List Text) ∧
      Text.split ':' "/opt/a:/opt/b" ≠ spec.codePath := by
  intro spec
  refine ⟨rfl, List.cons_ne_nil _ _, ?_, by decide, by decide⟩
  exact LaunchSpec.find?_codePath _

-- A worker that is started with accepted constraints finds the shared packages, each of them once
-- and in their order.
theorem packages_of_accepted (launcher : Launcher) (entryPoint directory : Text) {spec : Isolation}
    (haccepted : spec.check = .ok ()) (hne : spec.sharedPackages.toList ≠ []) :
    ∃ value,
      (launcher.launchSpec entryPoint directory spec).launchEnvironment.find?
        "EXECORE_SHARED_PKGS" = some value ∧
      Text.split ',' value = spec.sharedPackages.toList ∧
      (Text.split ',' value).Pairwise (· < ·) ∧
      ∀ name, name ∈ Text.split ',' value ↔ (spec.sharedPackages.find? name).isSome := by
  obtain ⟨hpackages, -, -, -⟩ := Isolation.check_eq_ok_iff.mp haccepted
  have hnames := Isolation.checkPackages_eq_ok_iff.mp hpackages
  have hsplit : Text.split ',' (Text.join ',' spec.sharedPackages.toList) =
      spec.sharedPackages.toList :=
    Text.split_join hne fun name hname =>
      Isolation.comma_not_mem_of_isPackageName (hnames name hname)
  refine ⟨Text.join ',' spec.sharedPackages.toList, ?_, hsplit, ?_, ?_⟩
  · rw [LaunchSpec.find?_sharedPackages]
    exact congrArg some (LaunchSpec.joinFilled_eq_join fun name hname =>
      Isolation.ne_nil_of_isPackageName (hnames name hname))
  · rw [hsplit]
    exact spec.sharedPackages.sorted_keys
  · intro name
    rw [hsplit]
    exact (Table.isSome_find?_iff spec.sharedPackages name).symm

theorem packages_of_two_names :
    let spec : Isolation := { sharedPackages := .ofList ["org.example.api", "_internal.v2"] }
    spec.check = .ok () ∧ ∃ value,
      (launchSpec {} "w" "" spec).launchEnvironment.find? "EXECORE_SHARED_PKGS" = some value ∧
      Text.split ',' value = (["_internal.v2", "org.example.api"] : List Text) := by
  intro spec
  have haccepted : spec.check = .ok () := rfl
  have hne : spec.sharedPackages.toList ≠ [] := List.cons_ne_nil _ _
  obtain ⟨value, hvalue, hsplit, -⟩ := packages_of_accepted {} "w" "" haccepted hne
  exact ⟨haccepted, value, hvalue, hsplit⟩

end Launcher

end Foreman
