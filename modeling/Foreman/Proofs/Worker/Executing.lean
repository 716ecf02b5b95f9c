import Foreman.Proofs.System.Search
import Foreman.Proofs.Worker.Starting

namespace Foreman

namespace Text

variable {path element name : Text}

theorem isAbsolute_iff : path.isAbsolute ↔ path.head? = some ('/' : UInt8) :=
  decide_eq_true_iff

-- A slash is no NUL byte.
theorem isAbsolute_untilNul (path : Text) : path.untilNul.isAbsolute = path.isAbsolute := by
  cases path with
  | nil => rfl
  | cons c path =>
    rw [Bool.eq_iff_iff, isAbsolute_iff, isAbsolute_iff]
    by_cases hc : c = 0
    · subst hc
      exact iff_of_false nofun fun h => absurd (Option.some.inj h) (by decide)
    · rw [untilNul_cons hc]
      rfl

theorem not_isAbsolute_of_name (hname : ('/' : UInt8) ∉ name) : ¬name.isAbsolute := by
  rw [isAbsolute_iff]
  exact fun h => hname (List.mem_of_mem_head? h)

theorem isAbsolute_under (hname : ('/' : UInt8) ∉ name) :
    (element.under name).isAbsolute = element.isAbsolute := by
  unfold under
  split
  case isTrue hcurrent =>
    have hrelative : element.isAbsolute = false := by rcases hcurrent with rfl | rfl <;> rfl
    rw [hrelative, Bool.eq_false_iff]
    exact not_isAbsolute_of_name hname
  case isFalse hnamed =>
    have hempty : element ≠ [] := fun h => hnamed (.inl h)
    split
    · exact isAbsolute_append hempty name
    · rw [List.append_assoc]
      exact isAbsolute_append hempty _

end Text

namespace FileTree

variable {tree : FileTree} {directory other place : Place} {path name : Text}
  {depth : Nat} {stage next last : Stage}

theorem resolve_untilNul (tree : FileTree) (directory : Place) (path : Text) :
    tree.resolve directory path.untilNul = tree.resolve directory path := by
  unfold resolve walk follow
  dsimp only
  rw [Text.untilNul_untilNul]

theorem resolve_of_absolute (h : path.isAbsolute) (directory other : Place) :
    tree.resolve directory path = tree.resolve other path := by
  unfold resolve walk follow
  dsimp only
  rw [Text.isAbsolute_untilNul, if_pos h, if_pos h]

def Linkless (tree : FileTree) : Prop :=
  ∀ place target, tree.node? place ≠ some (.link target)

-- The names that a walk passes without going anywhere.
def Stays (name : Text) : Prop := name = [] ∨ name = "."

instance : DecidablePred Stays := fun _ => inferInstanceAs (Decidable (_ ∨ _))

theorem entry_eq_ok {below : Place} (hup : name ≠ "..") (h : tree.entry place name = .ok below) :
    below = if Stays name then place else place ++ [name] := by
  unfold entry at h
  split at h
  case h_1 | h_2 | h_3 => cases h
  case h_4 =>
    split_ifs at h with hempty hclosed hpoint hlong hthere
    · rw [if_pos (.inl (List.isEmpty_iff.mp hempty)), Except.ok.inj h]
    · rw [if_pos (.inr hpoint), Except.ok.inj h]
    · have hgoes : ¬Stays name := not_or.mpr ⟨mt List.isEmpty_iff.mpr hempty, hpoint⟩
      rw [if_neg hgoes, Except.ok.inj h]

theorem step_eq_ok (hlinkless : tree.Linkless) (hup : name ≠ "..")
    (h : tree.step depth stage name = .ok next) :
    next.place = if Stays name then stage.place else stage.place ++ [name] := by
  cases hentry : tree.entry stage.place name with
  | error e => cases (step_of_error hentry).symm.trans h
  | ok below =>
    cases (step_of_not_link hentry (hlinkless below)).symm.trans h
    exact entry_eq_ok hup hentry

-- A walk that never goes up ends below its start, by the names on its way. The induction is on
-- these names.
theorem walk_eq_ok (hlinkless : tree.Linkless) {names : List Text} (hup : (".." : Text) ∉ names)
    (h : names.foldlM (tree.step depth) stage = .ok last) :
    last.place = stage.place ++ names.filter fun name => ¬Stays name := by
  induction names generalizing stage with
  | nil =>
    rw [List.filter_nil, List.append_nil]
    exact (congrArg Stage.place (Except.ok.inj h)).symm
  | cons name names ih =>
    obtain ⟨hname, hnames⟩ := not_or.mp (mt List.mem_cons.mpr hup)
    rw [List.foldlM_cons, bind_eq_ok_iff] at h
    obtain ⟨next, hnext, hlast⟩ := h
    rw [ih hnames hlast, step_eq_ok hlinkless (Ne.symm hname) hnext]
    by_cases hstays : Stays name
    · rw [if_pos hstays, List.filter_cons_of_neg (by simpa using hstays)]
    · rw [if_neg hstays, List.filter_cons_of_pos (by simpa using hstays), List.append_assoc,
        List.singleton_append]

theorem walk_of_resolve (h : tree.resolve directory path = .ok place) :
    ∃ links, (Text.split '/' path.untilNul).foldlM (tree.step mostLinks) (outset directory path) =
      .ok ⟨place, links⟩ := by
  obtain ⟨links, hwalk⟩ := resolve_eq_ok_iff.mp h
  refine ⟨links, ?_⟩
  unfold walk follow at hwalk
  dsimp only at hwalk
  rw [Text.isAbsolute_untilNul] at hwalk
  split at hwalk
  case isTrue => cases hwalk
  case isFalse =>
    split at hwalk
    case isTrue => cases hwalk
    case isFalse => exact hwalk

theorem eq_of_resolve_eq (hlinkless : tree.Linkless) (hrelative : ¬path.isAbsolute)
    (hup : (".." : Text) ∉ Text.split '/' path.untilNul)
    (h : tree.resolve directory path = .ok place) (hother : tree.resolve other path = .ok place) :
    directory = other := by
  obtain ⟨_, hwalk⟩ := walk_of_resolve h
  obtain ⟨_, hwalk'⟩ := walk_of_resolve hother
  have hplace := walk_eq_ok hlinkless hup hwalk
  have hplace' := walk_eq_ok hlinkless hup hwalk'
  unfold outset at hplace hplace'
  rw [if_neg hrelative] at hplace hplace'
  exact List.append_cancel_right (hplace.symm.trans hplace')

theorem exists_resolve_of_accessible (h : tree.accessible directory path) :
    ∃ place, tree.resolve directory path = .ok place := by
  unfold accessible at h
  split at h
  case h_1 => cases h
  case h_2 place hplace => exact ⟨place, hplace⟩

end FileTree

namespace ChildSpec

variable {spec : ChildSpec} {parent : Parent} {directory place : Place}

def workplace (spec : ChildSpec) (parent : Parent) : Except SystemError Place :=
  if spec.directory.isEmpty then .ok parent.directory
  else parent.tree.enter parent.directory spec.directory.noSlash

theorem mapError_eq_ok_iff {ε ε' α : Type} {f : ε → ε'} {value : Except ε α} {a : α} :
    value.mapError f = .ok a ↔ value = .ok a := by
  cases value with
  | error e => exact iff_of_false nofun nofun
  | ok b => rw [Except.mapError, Except.ok.injEq, Except.ok.injEq]

theorem target_eq (spec : ChildSpec) (parent : Parent) :
    spec.target parent =
      ((spec.workplace parent).mapError fun _ => .directory) >>= fun directory =>
        if spec.preparation ≠ 0 then .error .preparation
        else
          ((parent.tree.program directory (spec.arguments.headD [])).mapError fun _ => .execution)
            >>= fun program => .ok (directory, program) := by
  unfold target workplace
  dsimp only
  by_cases hstays : spec.directory.isEmpty = true
  · rw [if_pos hstays, if_pos hstays]
    rfl
  · rw [if_neg hstays, if_neg hstays]
    rfl

theorem target_eq_ok_iff :
    spec.target parent = .ok (directory, place) ↔
      spec.workplace parent = .ok directory ∧ spec.preparation = 0 ∧
        parent.tree.program directory (spec.arguments.headD []) = .ok place := by
  rw [target_eq, bind_eq_ok_iff]
  constructor
  · rintro ⟨entered, hentered, hexecuted⟩
    split at hexecuted
    case isTrue => cases hexecuted
    case isFalse hprepared =>
      obtain ⟨program, hprogram, hpair⟩ := bind_eq_ok_iff.mp hexecuted
      cases hpair
      exact ⟨mapError_eq_ok_iff.mp hentered, not_not.mp hprepared, mapError_eq_ok_iff.mp hprogram⟩
  · rintro ⟨hentered, hprepared, hprogram⟩
    refine ⟨directory, mapError_eq_ok_iff.mpr hentered, ?_⟩
    rw [if_neg (not_not.mpr hprepared), hprogram]
    rfl

end ChildSpec

namespace ChildWorker

variable {worker : ChildWorker} {parent : Parent} {path : Text}

theorem found_of_executable? (h : worker.executable? parent = some path) :
    parent.tree.accessible parent.directory path ∧
      (('/' : UInt8) ∈ worker.spec.executable → path = worker.spec.executable) ∧
      (('/' : UInt8) ∉ worker.spec.executable →
        ∃ element ∈ Text.split ':' ((parent.environment.find? "PATH").getD "/usr/bin:/bin"),
          path = element.under worker.spec.executable) := by
  unfold executable? findExecutable at h
  split at h
  case isTrue => cases h
  case isFalse =>
    split at h
    case isTrue hslash =>
      have hmem : ('/' : UInt8) ∈ worker.spec.executable := List.contains_iff_mem.mp hslash
      split at h
      case isTrue hthere =>
        cases h
        exact ⟨hthere, fun _ => rfl, fun hnot => absurd hmem hnot⟩
      case isFalse => cases h
    case isFalse hslash =>
      have hnot : ('/' : UInt8) ∉ worker.spec.executable := mt List.contains_iff_mem.mpr hslash
      rw [candidates_eq] at h
      obtain ⟨element, helement, hpath⟩ := List.mem_map.mp (List.mem_of_find?_eq_some h)
      exact ⟨List.find?_some h, fun hmem => absurd hmem hnot,
        fun _ => ⟨element, helement, hpath.symm⟩⟩

theorem isAbsolute_iff_of_found (h : worker.executable? parent = some path) :
    path.isAbsolute ↔
      ('/' : UInt8) ∈ worker.spec.executable ∧ worker.spec.executable.isAbsolute ∨
        ('/' : UInt8) ∉ worker.spec.executable ∧
          ∃ element ∈ Text.split ':' ((parent.environment.find? "PATH").getD "/usr/bin:/bin"),
            path = element.under worker.spec.executable ∧ element.isAbsolute := by
  obtain ⟨-, hgiven, hlisted⟩ := found_of_executable? h
  by_cases hslash : ('/' : UInt8) ∈ worker.spec.executable
  · rw [hgiven hslash]
    exact ⟨fun habsolute => .inl ⟨hslash, habsolute⟩,
      fun hcases => hcases.elim And.right fun hlisted => absurd hslash hlisted.1⟩
  · obtain ⟨element, helement, hpath⟩ := hlisted hslash
    constructor
    · intro habsolute
      rw [hpath, Text.isAbsolute_under hslash] at habsolute
      exact .inr ⟨hslash, element, helement, hpath, habsolute⟩
    · rintro (⟨hmem, -⟩ | ⟨-, element, -, rfl, habsolute⟩)
      · exact absurd hmem hslash
      · rwa [Text.isAbsolute_under hslash]

-- An executable that is found is tested in one place, and executed in the place that its path leads
-- to from the directory of the worker. The places are the same if the path is absolute or the
-- directories are the same, and only then, where there are no links and the path never goes up.
-- The path is absolute if it was given as an absolute path, or found in an absolute element of the
-- search path.
theorem place_of_executed (hfound : worker.executable? parent = some path) :
    let spec := worker.childSpec parent.environment path
    let command := spec.arguments.headD []
    ∃ tested, parent.tree.resolve parent.directory path = .ok tested ∧
      (∀ directory, spec.workplace parent = .ok directory →
        (∀ place, spec.target parent = .ok (directory, place) ↔
          parent.tree.resolve directory command = .ok place ∧
            parent.tree.node? place = some (.file true)) ∧
        (path.isAbsolute ∨ directory = parent.directory →
          parent.tree.resolve directory command = .ok tested) ∧
        (parent.tree.Linkless → (".." : Text) ∉ Text.split '/' command →
          parent.tree.resolve directory command = .ok tested →
            path.isAbsolute ∨ directory = parent.directory)) ∧
      (path.isAbsolute ↔
        ('/' : UInt8) ∈ worker.spec.executable ∧ worker.spec.executable.isAbsolute ∨
          ('/' : UInt8) ∉ worker.spec.executable ∧
            ∃ element ∈ Text.split ':' ((parent.environment.find? "PATH").getD "/usr/bin:/bin"),
              path = element.under worker.spec.executable ∧ element.isAbsolute) := by
  intro spec command
  have hcommand : ∀ directory,
      parent.tree.resolve directory command = parent.tree.resolve directory path :=
    fun directory => FileTree.resolve_untilNul parent.tree directory path
  obtain ⟨haccessible, -, -⟩ := found_of_executable? hfound
  obtain ⟨tested, htested⟩ := FileTree.exists_resolve_of_accessible haccessible
  refine ⟨tested, htested, fun directory hworkplace =>
      ⟨fun place => ?_, ?_, fun hlinkless hup hsame => ?_⟩,
    isAbsolute_iff_of_found hfound⟩
  · rw [ChildSpec.target_eq_ok_iff, FileTree.program_eq_ok_iff]
    exact ⟨fun h => h.2.2, fun h => ⟨hworkplace, rfl, h⟩⟩
  · rintro (habsolute | rfl)
    · rw [hcommand, FileTree.resolve_of_absolute habsolute directory parent.directory, htested]
    · rw [hcommand, htested]
  · rw [hcommand] at hsame
    by_cases habsolute : path.isAbsolute
    · exact .inl habsolute
    · exact .inr (FileTree.eq_of_resolve_eq hlinkless habsolute hup hsame htested)

-- A worker that runs elsewhere and is found in an absolute directory.
theorem place_of_executed_elsewhere :
    let tree : FileTree :=
      ⟨[(["opt"], .directory true), (["opt", "w"], .file true), (["home"], .directory true),
        (["srv"], .directory true), (["srv", "w"], .file true)]⟩
    let parent : Parent :=
      ⟨tree, fun _ _ _ => .exited 0 [] [], ["home"], Table.ofList [("PATH", "bin:/opt")]⟩
    let worker : ChildWorker :=
      ⟨{ baseName := "w", role := "r", protocol := "p", executable := "w", directory := "/srv/" },
        "w 1", none⟩
    let spec := worker.childSpec parent.environment "/opt/w"
    worker.executable? parent = some "/opt/w" ∧ spec.workplace parent = .ok ["srv"] ∧
      tree.resolve ["home"] "/opt/w" = .ok ["opt", "w"] ∧
      tree.resolve ["srv"] "/opt/w" = .ok ["opt", "w"] := by
  intro tree parent worker spec
  have hfound : worker.executable? parent = some "/opt/w" := by decide +kernel
  have hworkplace : spec.workplace parent = .ok ["srv"] := by decide +kernel
  have hplace : tree.resolve ["home"] "/opt/w" = .ok ["opt", "w"] := by decide +kernel
  obtain ⟨tested, htested, hexecuted, -⟩ := place_of_executed hfound
  obtain ⟨-, hsame, -⟩ := hexecuted ["srv"] hworkplace
  obtain rfl := Except.ok.inj (htested.symm.trans hplace)
  exact ⟨hfound, hworkplace, hplace, hsame (.inl (by decide))⟩

-- A worker that is found beside whoever starts it, and runs where another program has its name.
theorem other_place_executed :
    let tree : FileTree :=
      ⟨[(["home"], .directory true), (["home", "w"], .file true), (["srv"], .directory true),
        (["srv", "w"], .file true)]⟩
    let parent : Parent := ⟨tree, fun _ _ _ => .exited 0 [] [], ["home"], ∅⟩
    let worker : ChildWorker :=
      ⟨{ baseName := "w", role := "r", protocol := "p", executable := "./w", directory := "/srv/" },
        "w 1", none⟩
    worker.executable? parent = some "./w" ∧
      tree.resolve parent.directory "./w" = .ok ["home", "w"] ∧
      (worker.childSpec parent.environment "./w").target parent = .ok (["srv"], ["srv", "w"]) := by
  decide +kernel

end ChildWorker

end Foreman
