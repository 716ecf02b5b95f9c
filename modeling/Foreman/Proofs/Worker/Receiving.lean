import Foreman.Proofs.Number.Size
import Foreman.Proofs.System.Environment
import Foreman.Proofs.Worker.Visibility

namespace Foreman

theorem Decimal.nulFree_digits (n : Nat) : (digits n).NulFree := by
  intro h
  exact absurd (isDigit_of_mem_digits h) (by decide)

theorem Decimal.nulFree_text (n : Int) : (Decimal.text n).NulFree := by
  cases n with
  | ofNat n => exact nulFree_digits n
  | negSucc n => exact Text.nulFree_append_iff (a := "-").mpr ⟨by decide, nulFree_digits (n + 1)⟩

theorem Size.nulFree_writeBytes (n : Nat) : (writeBytes n).NulFree := by
  obtain ⟨m, larger, hwrite, -⟩ := write_spec .one n
  rw [writeBytes, hwrite, Text.nulFree_append_iff]
  exact ⟨Decimal.nulFree_text m, by cases larger <;> decide⟩

namespace Isolation

variable {spec : Isolation}

theorem nulFree_of_isPackageName {name : Text} (h : isPackageName name) : name.NulFree := by
  intro hnul
  rcases byte_of_isDotted h _ hnul with hpoint | hname
  · exact absurd hpoint (by decide)
  · exact absurd hname (by decide)

theorem splits_environment (h : spec.checkEnvironment = .ok ()) :
    Environment.Splits spec.environment := by
  intro e he hequals
  have hname := checkEnvironment_eq_ok_iff.mp h e.1 (List.mem_map_of_mem he)
  exact (isVariableName_iff.mp hname).2 hequals

end Isolation

namespace LaunchSpec

variable {spec : LaunchSpec}

theorem name_of_mem_contract {e : Text × Text} (he : e ∈ spec.contract) :
    ('=' : UInt8) ∉ e.1 ∧ e.1.NulFree := by
  have htold : ∀ name ∈ told, ('=' : UInt8) ∉ name ∧ name.NulFree := by decide
  exact htold e.1 (spec.keys_contract.mem (List.mem_map_of_mem he))

-- What tells the bounds is free of NUL bytes, and so is what tells the rest if the rest is.
theorem nulFree_contract_iff :
    (∀ e ∈ spec.contract, e.2.NulFree) ↔ ∀ e ∈ spec.constants, e.2.NulFree := by
  have hbounds : ∀ e ∈ spec.bounds.flatMap toldBound, e.2.NulFree := by
    intro e he
    obtain ⟨bound, -, hbound⟩ := List.mem_flatMap.mp he
    unfold toldBound at hbound
    split at hbound
    · cases hbound
    · obtain rfl := List.mem_singleton.mp hbound
      exact Size.nulFree_writeBytes bound.2
  rw [contract_eq, List.forall_mem_append]
  exact and_iff_left hbounds

end LaunchSpec

namespace Launcher

-- Of what a launch always tells, the locations are all that is not checked.
theorem nulFree_contract_iff (launcher : Launcher) (entryPoint directory : Text) {spec : Isolation}
    (haccepted : spec.check = .ok ()) :
    (∀ e ∈ (launcher.launchSpec entryPoint directory spec).contract, e.2.NulFree) ↔
      ∀ location ∈ spec.codePath, location.NulFree := by
  obtain ⟨hpackages, hpath, -, -⟩ := Isolation.check_eq_ok_iff.mp haccepted
  have hnames := Isolation.checkPackages_eq_ok_iff.mp hpackages
  have hfull := Isolation.checkCodePath_eq_ok_iff.mp hpath
  have hpackagesFree : (LaunchSpec.joinFilled ',' spec.sharedPackages.toList).NulFree := by
    rw [LaunchSpec.joinFilled_eq_join fun name hname =>
      Isolation.ne_nil_of_isPackageName (hnames name hname), Text.nulFree_join_iff (by decide)]
    exact fun name hname => Isolation.nulFree_of_isPackageName (hnames name hname)
  have hlevel : launcher.level.name.NulFree := by cases launcher.level <;> decide
  have hpathFree : (LaunchSpec.joinFilled ':' spec.codePath).NulFree ↔
      ∀ location ∈ spec.codePath, location.NulFree := by
    rw [LaunchSpec.joinFilled_eq_join hfull, Text.nulFree_join_iff (by decide)]
  rw [LaunchSpec.nulFree_contract_iff]
  constructor
  · intro h
    have hpathTold : (("EXECORE_CODE_PATH" : Text), LaunchSpec.joinFilled ':' spec.codePath) ∈
        (launcher.launchSpec entryPoint directory spec).constants := by
      simp [LaunchSpec.constants, launchSpec]
    exact hpathFree.mp (h _ hpathTold)
  · intro hlocations e he
    simp only [LaunchSpec.constants, launchSpec, List.mem_cons, List.not_mem_nil, or_false] at he
    rcases he with rfl | rfl | rfl | rfl | rfl | rfl
    case inr.inr.inr.inl => exact hpathFree.mpr hlocations
    case inr.inr.inr.inr.inl => exact hpackagesFree
    case inr.inr.inr.inr.inr => exact hlevel
    all_goals decide

end Launcher

namespace ChildWorker

theorem splits_environment {spec : LaunchSpec} (hspec : Environment.Splits spec.environment)
    (inherited : Environment) : (environment inherited spec).Splits := by
  intro e he
  rcases Table.mem_insertAll he with hlaunch | hinherited
  · rcases Table.mem_insertAll hlaunch with hcontract | hown
    · exact (LaunchSpec.name_of_mem_contract hcontract).1
    · exact hspec e hown
  · exact Environment.splits_ofStrings inherited.strings e hinherited

-- What is inherited came as strings itself, and is free of NUL bytes.
theorem nulFree_environment_iff (inherited : Environment) (spec : LaunchSpec) :
    (environment inherited spec).NulFree ↔
      (∀ e ∈ spec.contract, e.2.NulFree) ∧
        ∀ e ∈ spec.environment.entries, spec.contract.lookup e.1 = none →
          e.1.NulFree ∧ e.2.NulFree := by
  rw [Environment.nulFree_iff_find?]
  constructor
  · refine fun h => ⟨fun e he => ?_, fun e he huntold => ?_⟩
    · refine (h e.1 e.2 ?_).2
      rw [find?_environment, Table.lookup_eq_some_of_mem spec.contract_distinct he]
      rfl
    · refine h e.1 e.2 ?_
      rw [find?_environment, huntold, Table.find?_eq_some_of_mem he]
      rfl
  · rintro ⟨hcontract, hown⟩ name value hfind
    rw [find?_environment] at hfind
    cases htold : spec.contract.lookup name with
    | some told =>
      rw [htold] at hfind
      cases hfind
      have hmem := Table.mem_of_lookup htold
      exact ⟨(LaunchSpec.name_of_mem_contract hmem).2, hcontract _ hmem⟩
    | none =>
      rw [htold, Option.none_or] at hfind
      rcases Option.or_eq_some_iff.mp hfind with hspec | ⟨-, hinherited⟩
      · exact hown _ (Table.mem_of_find? hspec) htold
      · exact Environment.nulFree_iff_find?.mp
          (Environment.nulFree_ofStrings_strings inherited) name value hinherited

theorem arguments_spawned (worker : ChildWorker) (parent : Parent) (path : Text) :
    (worker.spawned parent path).invocation.arguments =
      path.untilNul :: worker.spec.arguments.map Text.untilNul := by
  unfold spawned Child.spawn
  simp only
  split <;> rfl

end ChildWorker

namespace Launcher

-- A worker that is started with accepted constraints receives its arguments as they were asked for
-- exactly if none of them holds a NUL byte. Its variables are what they were asked to be exactly if
-- there is no NUL byte in the locations, nor in the variables of the constraints that the launch
-- does not tell itself. What is inherited always arrives.
theorem received_of_accepted (launcher : Launcher) (entryPoint directory name : Text)
    {spec : Isolation} (haccepted : spec.check = .ok ()) :
    let worker : ChildWorker := ⟨launcher.launchSpec entryPoint directory spec, name, none⟩
    (∀ parent path,
      let received := (worker.spawned parent path).invocation
      let asked := ChildWorker.environment parent.environment worker.spec
      (received.arguments.tail = spec.arguments ↔ ∀ a ∈ spec.arguments, a.NulFree) ∧
      (Environment.ofStrings received.environment = asked ↔
        (∀ location ∈ spec.codePath, location.NulFree) ∧
          ∀ e ∈ spec.environment.entries, worker.spec.contract.lookup e.1 = none →
            e.1.NulFree ∧ e.2.NulFree)) ∧
    ∀ yard started, (worker.start yard).result = .ok started →
      ∃ number child path, started.number = some number ∧
        (worker.start yard).state.child? number = some child ∧
        child.invocation = (worker.spawned yard.parent path).invocation := by
  intro worker
  have hown : Environment.Splits spec.environment :=
    Isolation.splits_environment (Isolation.check_eq_ok_iff.mp haccepted).2.2.2
  refine ⟨fun parent path => ⟨?arguments, ?environment⟩, fun yard started hstart => ?started⟩
  case arguments =>
    rw [ChildWorker.arguments_spawned]
    exact Text.map_untilNul_eq_self_iff
  case environment =>
    rw [ChildWorker.spawned, ChildWorker.environment_spawn,
      Environment.ofStrings_strings_eq_iff (ChildWorker.splits_environment hown _),
      ChildWorker.nulFree_environment_iff, nulFree_contract_iff launcher _ _ haccepted]
    rfl
  case started =>
    obtain ⟨number, child, path, hnumber, hchild, -, hinvocation⟩ :=
      ChildWorker.invocation_start ⟨hstart, rfl⟩
    exact ⟨number, child, path, hnumber, hchild, hinvocation⟩

theorem received_of_two_arguments :
    let spec : Isolation :=
      { codePath := ["/opt/lib"], arguments := ["-v", "a b"], environment := .ofList [("FOO", "b=c")] }
    let worker : ChildWorker := ⟨launchSpec {} "w" "" spec, "w 1", none⟩
    spec.check = .ok () ∧ ∀ parent path,
      (worker.spawned parent path).invocation.arguments.tail = (["-v", "a b"] : List Text) ∧
      Environment.ofStrings (worker.spawned parent path).invocation.environment =
        ChildWorker.environment parent.environment worker.spec := by
  intro spec worker
  have haccepted : spec.check = .ok () := rfl
  refine ⟨haccepted, fun parent path => ?_⟩
  obtain ⟨harguments, henvironment⟩ :=
    (received_of_accepted {} "w" "" "w 1" haccepted).1 parent path
  exact ⟨harguments.mpr (by decide), henvironment.mpr ⟨by decide, by decide⟩⟩

-- An argument and a value with a NUL byte are accepted. The argument ends there for the worker, and
-- so does the value.
theorem received_up_to_nul :
    let spec : Isolation :=
      { arguments := [[97, 0, 98]], environment := .ofList [("FOO", [98, 0, 99])] }
    let worker : ChildWorker := ⟨launchSpec {} "w" "" spec, "w 1", none⟩
    let parent : Parent := ⟨⟨[]⟩, fun _ _ _ => {}, [], ∅⟩
    let received := (worker.spawned parent "w").invocation
    let asked := ChildWorker.environment parent.environment worker.spec
    spec.check = .ok () ∧ received.arguments.tail = [[97]] ∧
      asked.find? "FOO" = some [98, 0, 99] ∧ Environment.ofStrings received.environment ≠ asked := by
  intro spec worker parent received asked
  have hother : ("FOO" : Text) ∉ LaunchSpec.told := by decide
  have hown : worker.spec.environment.find? "FOO" = some [98, 0, 99] :=
    Table.find?_insert_self _ _ _
  have hasked : asked.find? "FOO" = some [98, 0, 99] := by
    rw [ChildWorker.find?_environment, LaunchSpec.lookup_contract_of_other hother, hown]
    rfl
  refine ⟨rfl, rfl, hasked, fun hsame => ?_⟩
  have hreceived : received.environment = asked.strings :=
    ChildWorker.environment_spawn worker parent "w"
  have hfree := Environment.nulFree_ofStrings_strings asked
  rw [← hreceived, hsame] at hfree
  exact absurd (Environment.nulFree_iff_find?.mp hfree _ _ hasked).2 (by decide)

end Launcher

end Foreman
