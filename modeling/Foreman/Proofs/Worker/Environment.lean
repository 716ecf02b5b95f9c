import Foreman.Proofs.Text.Table
import Foreman.Proofs.Worker.Starting

namespace Foreman

namespace LaunchSpec

def constants (spec : LaunchSpec) : List (Text × Text) :=
  [("EXECORE_WORKER_NAME", spec.baseName),
    ("EXECORE_WORKER_ROLE", spec.role),
    ("EXECORE_WORKER_PROTOCOL", spec.protocol),
    ("EXECORE_CODE_PATH", joinFilled ':' spec.codePath),
    ("EXECORE_SHARED_PKGS", joinFilled ',' spec.sharedPackages.toList),
    ("EXECORE_LOG_LEVEL", spec.level.name)]

def bounds (spec : LaunchSpec) : List (Text × Nat) :=
  [("EXECORE_MIN_HEAP", spec.minHeap), ("EXECORE_MAX_HEAP", spec.maxHeap)]

def told : List Text :=
  ["EXECORE_WORKER_NAME", "EXECORE_WORKER_ROLE", "EXECORE_WORKER_PROTOCOL", "EXECORE_CODE_PATH",
    "EXECORE_SHARED_PKGS", "EXECORE_LOG_LEVEL", "EXECORE_MIN_HEAP", "EXECORE_MAX_HEAP"]

-- A bound that is not set is not told.
def toldBound (bound : Text × Nat) : List (Text × Text) :=
  if bound.2 = 0 then [] else [(bound.1, Size.writeBytes bound.2)]

theorem contract_eq (spec : LaunchSpec) :
    spec.contract = spec.constants ++ spec.bounds.flatMap toldBound := by
  simp only [contract, bounds, toldBound, List.flatMap_cons, List.flatMap_nil, List.append_nil,
    List.append_assoc]
  rfl

theorem keys_toldBound (bounds : List (Text × Nat)) :
    ((bounds.flatMap toldBound).map (·.1)).Sublist (bounds.map (·.1)) := by
  induction bounds with
  | nil => exact .slnil
  | cons bound bounds ih =>
    simp only [List.flatMap_cons, List.map_append, List.map_cons, toldBound]
    split
    · exact ih.cons _
    · exact ih.cons_cons _

theorem keys_contract (spec : LaunchSpec) : (spec.contract.map (·.1)).Sublist told := by
  rw [contract_eq, List.map_append]
  exact (keys_toldBound spec.bounds).append_left (spec.constants.map (·.1))

theorem told_distinct : told.Pairwise fun a b => a ≠ b := by decide

theorem contract_distinct (spec : LaunchSpec) :
    spec.contract.Pairwise fun a b => a.1 ≠ b.1 :=
  List.pairwise_map.mp (told_distinct.sublist spec.keys_contract)

theorem find?_launchEnvironment (spec : LaunchSpec) (name : Text) :
    spec.launchEnvironment.find? name =
      (spec.contract.lookup name).or (spec.environment.find? name) :=
  Table.find?_insertAll spec.contract_distinct spec.environment name

theorem lookup_contract_of_constant {spec : LaunchSpec} {e : Text × Text}
    (he : e ∈ spec.constants) : spec.contract.lookup e.1 = some e.2 := by
  refine Table.lookup_eq_some_of_mem spec.contract_distinct ?_
  rw [contract_eq]
  exact List.mem_append_left _ he

theorem lookup_contract_of_bound {spec : LaunchSpec} {e : Text × Nat} (he : e ∈ spec.bounds)
    (hset : e.2 ≠ 0) : spec.contract.lookup e.1 = some (Size.writeBytes e.2) := by
  have htold : (e.1, Size.writeBytes e.2) ∈ toldBound e := by
    rw [toldBound, if_neg hset]
    exact List.mem_singleton_self _
  refine Table.lookup_eq_some_of_mem (e := (e.1, Size.writeBytes e.2)) spec.contract_distinct ?_
  rw [contract_eq]
  exact List.mem_append_right _ (List.mem_flatMap.mpr ⟨e, he, htold⟩)

-- Both bounds have a variable of their own, so that the one that is not set is told by none.
theorem lookup_contract_of_unbound {spec : LaunchSpec} {e : Text × Nat} (he : e ∈ spec.bounds)
    (hunset : e.2 = 0) : spec.contract.lookup e.1 = none := by
  rw [contract_eq, List.lookup_append]
  simp only [bounds, List.mem_cons, List.not_mem_nil, or_false] at he
  rcases he with rfl | rfl
  · have hmin : spec.minHeap = 0 := hunset
    simp only [bounds, List.flatMap_cons, toldBound, hmin, ite_true]
    by_cases hmax : spec.maxHeap = 0
    · rw [if_pos hmax]
      rfl
    · rw [if_neg hmax]
      rfl
  · have hmax : spec.maxHeap = 0 := hunset
    simp only [bounds, List.flatMap_cons, toldBound, hmax, ite_true]
    by_cases hmin : spec.minHeap = 0
    · rw [if_pos hmin]
      rfl
    · rw [if_neg hmin]
      rfl

theorem lookup_contract_of_other {spec : LaunchSpec} {name : Text} (h : name ∉ told) :
    spec.contract.lookup name = none := by
  refine Table.lookup_eq_none_of_keys fun e he hname => h ?_
  rw [← hname]
  exact spec.keys_contract.mem (List.mem_map_of_mem he)

-- What an environment tells a worker of its launch. Without a bound a variable that tells bounds is
-- like any other variable of the spec.
structure Tells (spec : LaunchSpec) (inherited given : Environment) : Prop where
  constant : ∀ e ∈ spec.constants, given.find? e.1 = some e.2
  bound : ∀ e ∈ spec.bounds, e.2 ≠ 0 → given.find? e.1 = some (Size.writeBytes e.2)
  unbound : ∀ e ∈ spec.bounds, e.2 = 0 →
    ∀ value, spec.environment.find? e.1 = some value → given.find? e.1 = some value
  untold : ∀ e ∈ spec.bounds, e.2 = 0 →
    spec.environment.find? e.1 = none → inherited.find? e.1 = none → given.find? e.1 = none
  other : ∀ name ∉ told,
    given.find? name = (spec.environment.find? name).or (inherited.find? name)

end LaunchSpec

namespace ChildWorker

theorem find?_environment (inherited : Environment) (spec : LaunchSpec) (name : Text) :
    (environment inherited spec).find? name =
      ((spec.contract.lookup name).or (spec.environment.find? name)).or
        ((Environment.ofStrings inherited.strings).find? name) := by
  rw [environment, Table.find?_insertAll_entries, LaunchSpec.find?_launchEnvironment]

theorem tells_environment (inherited : Environment) (spec : LaunchSpec) :
    spec.Tells (Environment.ofStrings inherited.strings) (environment inherited spec) := by
  refine ⟨?_, ?_, ?_, ?_, ?_⟩
  · intro e he
    rw [find?_environment, LaunchSpec.lookup_contract_of_constant he]
    rfl
  · intro e he hset
    rw [find?_environment, LaunchSpec.lookup_contract_of_bound he hset]
    rfl
  · intro e he hunset value hvalue
    rw [find?_environment, LaunchSpec.lookup_contract_of_unbound he hunset, hvalue]
    rfl
  · intro e he hunset hspec hinherited
    rw [find?_environment, LaunchSpec.lookup_contract_of_unbound he hunset, hspec, hinherited]
    rfl
  · intro name hname
    rw [find?_environment, LaunchSpec.lookup_contract_of_other hname, Option.none_or]

theorem invocation_readLineWithin (patience : Nat) (child : Child) :
    (child.readLineWithin patience).2.invocation = child.invocation := by
  induction patience generalizing child with
  | zero => rfl
  | succ patience ih =>
    unfold Child.readLineWithin
    simp only
    split
    · rfl
    · exact ih (child.later 1)

theorem invocation_spawn (parent : Parent) (spec : ChildSpec) :
    (Child.spawn parent spec).invocation.environment = spec.strings parent := by
  unfold Child.spawn
  simp only
  split <;> rfl

theorem environment_spawn (worker : ChildWorker) (parent : Parent) (path : Text) :
    (Child.spawn parent (worker.childSpec parent.environment path)).invocation.environment =
      (environment parent.environment worker.spec).strings := by
  rw [invocation_spawn]
  exact List.append_nil _

theorem invocation_start {worker started : ChildWorker} {yard after : Yard}
    (h : (start worker).Yields yard (.ok started) after) :
    ∃ number child path, started.number = some number ∧ after.child? number = some child ∧
      worker.executable? yard.parent = some path ∧
      child.invocation = (worker.spawned yard.parent path).invocation := by
  obtain ⟨path, line, child, hfound, hread, -, rfl, rfl⟩ := of_start h
  have hkept := invocation_readLineWithin yard.patience (worker.spawned yard.parent path)
  rw [hread] at hkept
  exact ⟨_, child, path, rfl, child?_take yard child, hfound, hkept⟩

theorem environment_start {worker started : ChildWorker} {yard after : Yard}
    (h : (start worker).Yields yard (.ok started) after) :
    ∃ number child, started.number = some number ∧ after.child? number = some child ∧
      child.invocation.environment =
        (environment yard.parent.environment worker.spec).strings := by
  obtain ⟨number, child, path, hnumber, hchild, -, hinvocation⟩ := invocation_start h
  refine ⟨number, child, hnumber, hchild, ?_⟩
  rw [hinvocation]
  exact environment_spawn worker yard.parent path

-- What a worker finds in its environment. Its launch tells what it always tells, and the bounds
-- that are set, whatever the spec and the surroundings say under these names. Under the name of a
-- bound that is not set stands what the spec says there, and nothing if the surroundings are silent
-- as well. All other variables are those of the spec and, where it has none, those of the
-- surroundings. Processes of workers are started with these variables, and with no others.
theorem environment_of_started_worker (worker : ChildWorker) (yard : Yard) :
    let inherited := Environment.ofStrings yard.parent.environment.strings
    let given := environment yard.parent.environment worker.spec
    worker.spec.Tells inherited given ∧
    (∀ path, (Child.spawn yard.parent
        (worker.childSpec yard.parent.environment path)).invocation.environment = given.strings) ∧
    (∀ started, (start worker yard).result = .ok started →
      ∃ number child, started.number = some number ∧
        (start worker yard).state.child? number = some child ∧
        child.invocation.environment = given.strings) := by
  refine ⟨tells_environment _ _, environment_spawn worker yard.parent, fun started h => ?_⟩
  exact environment_start ⟨h, rfl⟩

-- A worker with a bound starts another one with another bound, and is not heard.
theorem environment_of_nested_worker :
    let inherited : Environment := .ofList [("EXECORE_MIN_HEAP", "1M")]
    let spec : LaunchSpec :=
      { baseName := "w", role := "r", protocol := "p", executable := "e", minHeap := 4096
        environment := .ofList [("HOME", "/root")] }
    (Environment.ofStrings inherited.strings).find? "EXECORE_MIN_HEAP" = some ("1M" : Text) ∧
      (("EXECORE_MIN_HEAP" : Text), 4096) ∈ spec.bounds ∧
      (environment inherited spec).find? "EXECORE_MIN_HEAP" = some (Size.writeBytes 4096) ∧
      ("HOME" : Text) ∉ LaunchSpec.told ∧
      (environment inherited spec).find? "HOME" = some ("/root" : Text) := by
  intro inherited spec
  have hbound : (("EXECORE_MIN_HEAP" : Text), 4096) ∈ spec.bounds := List.mem_cons_self
  have hother : ("HOME" : Text) ∉ LaunchSpec.told := by decide
  have hhome : spec.environment.find? "HOME" = some ("/root" : Text) :=
    Table.find?_insert_self _ _ _
  have htells := (environment_of_started_worker ⟨spec, "w 1", none⟩
    { parent := ⟨⟨[]⟩, fun _ _ _ => {}, [], inherited⟩ }).1
  have htold := htells.bound _ hbound (Nat.succ_ne_zero 4095)
  refine ⟨rfl, hbound, htold, hother, ?_⟩
  rw [htells.other _ hother, hhome, Option.some_or]

-- No bound is set here, and the variable of a bound is there all the same, because the spec has it.
theorem bound_told_without_bound :
    ∃ (inherited : Environment) (spec : LaunchSpec), spec.minHeap = 0 ∧
      (Environment.ofStrings inherited.strings).find? "EXECORE_MIN_HEAP" = none ∧
      (environment inherited spec).find? "EXECORE_MIN_HEAP" = some ("1M" : Text) := by
  refine ⟨∅, { baseName := "w", role := "r", protocol := "p", executable := "e"
               environment := .ofList [("EXECORE_MIN_HEAP", "1M")] }, rfl, rfl, ?_⟩
  rw [find?_environment]
  rfl

end ChildWorker

end Foreman
