import Foreman.Proofs.Session.Act
import Foreman.Proofs.System.Environment
import Foreman.Proofs.Text.Path
import Foreman.Proofs.Text.Split
import Foreman.System.Search

namespace Foreman

section

variable {α : Type} {p q : α → Bool} {head : α} {tail l : List α}

-- Something with the property `q` is listed, and nothing with the property `p` in front of it.
def LedBy (q p : α → Bool) (l : List α) : Prop :=
  ∃ front a back, l = front ++ a :: back ∧ q a ∧ ∀ b ∈ front, ¬p b

theorem not_ledBy_nil : ¬LedBy q p [] := by
  rintro ⟨front, a, back, h, -⟩
  exact List.append_ne_nil_of_right_ne_nil front (List.cons_ne_nil a back) h.symm

theorem ledBy_cons_iff : LedBy q p (head :: tail) ↔ q head ∨ ¬p head ∧ LedBy q p tail := by
  constructor
  · rintro ⟨_ | ⟨first, front⟩, a, back, h, ha, hfront⟩
    · cases h
      exact .inl ha
    · cases h
      obtain ⟨hhead, hfront⟩ := List.forall_mem_cons.mp hfront
      exact .inr ⟨hhead, front, a, back, rfl, ha, hfront⟩
  · rintro (hhead | ⟨hhead, front, a, back, rfl, ha, hfront⟩)
    · exact ⟨[], head, tail, rfl, hhead, nofun⟩
    · exact ⟨head :: front, a, back, rfl, ha, List.forall_mem_cons.mpr ⟨hhead, hfront⟩⟩

instance decidableLedBy (q p : α → Bool) : (l : List α) → Decidable (LedBy q p l)
  | [] => isFalse not_ledBy_nil
  | head :: tail =>
    have := decidableLedBy q p tail
    decidable_of_iff (q head ∨ ¬p head ∧ LedBy q p tail) ledBy_cons_iff.symm

-- Whoever looks for either property finds what looking for `p` finds, if `q` does not come first.
theorem find?_or_of_not_ledBy (h : ¬LedBy q p l) : l.find? (fun a => p a || q a) = l.find? p := by
  induction l with
  | nil => rfl
  | cons head tail ih =>
    rw [ledBy_cons_iff, not_or, not_and] at h
    obtain ⟨hq, htail⟩ := h
    by_cases hp : p head
    · rw [List.find?_cons_of_pos hp, List.find?_cons_of_pos (by rw [hp, Bool.true_or])]
    · have hneither : ¬(p head || q head) := by
        rw [Bool.or_eq_true]
        exact not_or.mpr ⟨hp, hq⟩
      rw [List.find?_cons_of_neg hp, List.find?_cons_of_neg (p := fun a => p a || q a) hneither,
        ih (htail hp)]

theorem find?_or_of_ledBy (h : LedBy q p l) :
    ∃ a, l.find? (fun a => p a || q a) = some a ∧ q a := by
  induction l with
  | nil => exact absurd h not_ledBy_nil
  | cons head tail ih =>
    rcases ledBy_cons_iff.mp h with hhead | ⟨hhead, htail⟩
    · exact ⟨head, List.find?_cons_of_pos (by rw [hhead, Bool.or_true]), hhead⟩
    by_cases hq : q head
    · exact ⟨head, List.find?_cons_of_pos (by rw [hq, Bool.or_true]), hq⟩
    · have hneither : ¬(p head || q head) := by
        rw [Bool.or_eq_true]
        exact not_or.mpr ⟨hhead, hq⟩
      rw [List.find?_cons_of_neg (p := fun a => p a || q a) hneither]
      exact ih htail

end

-- The path of a name in an element of a search path. The empty element is the current directory,
-- and so is the point.
def Text.under (element name : Text) : Text :=
  if element = [] ∨ element = "." then name
  else if element.getLast? = some ('/' : UInt8) then element ++ name
  else element ++ "/" ++ name

theorem candidates_eq (searchPath name : Text) :
    candidates searchPath name = (Text.split ':' searchPath).map (Text.under · name) := by
  refine List.map_congr_left fun element _ => ?_
  unfold Text.under
  by_cases hempty : element = []
  · rw [if_pos (.inl hempty), hempty]
    rfl
  rw [Text.orElse, if_neg (mt List.isEmpty_iff.mp hempty)]
  by_cases hpoint : element = "."
  · rw [if_pos (.inr hpoint), hpoint]
    rfl
  rw [if_neg (not_or.mpr ⟨hempty, hpoint⟩), Text.withSlash_of_named hempty hpoint]
  split <;> rfl

namespace FileTree

variable {tree : FileTree} {directory place : Place} {path element name : Text} {stage : Stage}
  {depth : Nat}

theorem program_eq_ok_iff :
    tree.program directory path = .ok place ↔
      tree.resolve directory path = .ok place ∧ tree.node? place = some (.file true) := by
  rw [program, bind_eq_ok_iff]
  constructor
  · rintro ⟨found, hresolve, hfound⟩
    split at hfound
    case h_1 hnode =>
      cases hfound
      exact ⟨hresolve, hnode⟩
    case h_2 | h_3 => cases hfound
  · rintro ⟨hresolve, hnode⟩
    exact ⟨place, hresolve, by rw [hnode]; rfl⟩

theorem enter_eq_ok_iff :
    tree.enter directory path = .ok place ↔
      tree.resolve directory path = .ok place ∧ tree.node? place = some (.directory true) := by
  rw [enter, bind_eq_ok_iff]
  constructor
  · rintro ⟨found, hresolve, hfound⟩
    split at hfound
    case h_1 hnode =>
      cases hfound
      exact ⟨hresolve, hnode⟩
    case h_2 | h_3 | h_4 | h_5 => cases hfound
  · rintro ⟨hresolve, hnode⟩
    exact ⟨place, hresolve, by rw [hnode]; rfl⟩

def isProgram (tree : FileTree) (directory : Place) (path : Text) : Bool :=
  (tree.program directory path).isOk

def isSearchable (tree : FileTree) (directory : Place) (path : Text) : Bool :=
  (tree.enter directory path).isOk

theorem isOk_iff {ε α : Type} {value : Except ε α} : value.isOk ↔ ∃ a, value = .ok a := by
  cases value with
  | error e => exact iff_of_false Bool.false_ne_true nofun
  | ok a => exact iff_of_true rfl ⟨a, rfl⟩

theorem isProgram_iff :
    tree.isProgram directory path ↔
      ∃ place, tree.resolve directory path = .ok place ∧ tree.node? place = some (.file true) := by
  simp only [isProgram, isOk_iff, program_eq_ok_iff]

theorem isSearchable_iff :
    tree.isSearchable directory path ↔
      ∃ place, tree.resolve directory path = .ok place ∧
        tree.node? place = some (.directory true) := by
  simp only [isSearchable, isOk_iff, enter_eq_ok_iff]

theorem not_isSearchable_of_isProgram (h : tree.isProgram directory path) :
    ¬tree.isSearchable directory path := by
  obtain ⟨place, hresolve, hnode⟩ := isProgram_iff.mp h
  intro hdirectory
  obtain ⟨other, hother, hnode'⟩ := isSearchable_iff.mp hdirectory
  rw [hresolve] at hother
  cases hother
  rw [hnode] at hnode'
  cases hnode'

theorem accessible_eq (tree : FileTree) (directory : Place) (path : Text) :
    tree.accessible directory path =
      (tree.isProgram directory path || tree.isSearchable directory path) := by
  rw [Bool.eq_iff_iff, Bool.or_eq_true, isProgram_iff, isSearchable_iff, accessible]
  cases tree.resolve directory path with
  | error e => exact iff_of_false Bool.false_ne_true (by rintro (⟨_, ⟨⟩, _⟩ | ⟨_, ⟨⟩, _⟩))
  | ok place =>
    simp only [Except.ok.injEq, exists_eq_left']
    cases tree.node? place with
    | none => simp
    | some node =>
      cases node with
      | directory searchable => simp
      | file executable => simp
      | link target => simp

def outset (directory : Place) (path : Text) : Stage :=
  ⟨if path.isAbsolute then [] else directory, mostLinks⟩

theorem resolve_eq_ok_iff :
    tree.resolve directory path = .ok place ↔
      ∃ links, tree.walk directory path = .ok ⟨place, links⟩ := by
  unfold resolve
  cases tree.walk directory path with
  | error e => exact iff_of_false nofun nofun
  | ok stage =>
    constructor
    · rintro ⟨⟩
      exact ⟨stage.links, rfl⟩
    · rintro ⟨links, ⟨⟩⟩
      rfl

theorem walk_of_short (hempty : path ≠ []) (hnul : path.NulFree)
    (hshort : path.length ≤ longestPath) :
    tree.walk directory path =
      (Text.split '/' path).foldlM (tree.step mostLinks) (outset directory path) := by
  unfold walk follow
  simp only [Text.untilNul_of_nulFree hnul]
  rw [if_neg (mt List.isEmpty_iff.mp hempty), if_neg (Nat.not_lt.mpr hshort)]
  rfl

theorem short_of_walk (hnul : path.NulFree) (h : tree.walk directory path = .ok stage) :
    path ≠ [] ∧ path.length ≤ longestPath := by
  unfold walk follow at h
  simp only [Text.untilNul_of_nulFree hnul] at h
  split at h
  case isTrue => cases h
  case isFalse hempty =>
    split at h
    case isTrue => cases h
    case isFalse hshort => exact ⟨mt List.isEmpty_iff.mpr hempty, Nat.not_lt.mp hshort⟩

-- All steps are made in the same way but for links.
theorem exists_step_eq (tree : FileTree) (depth : Nat) :
    ∃ through, tree.step depth = tree.stepVia through := by
  cases depth with
  | zero => exact ⟨_, rfl⟩
  | succ depth => exact ⟨_, rfl⟩

theorem step_of_error {e : SystemError} (h : tree.entry stage.place name = .error e) :
    tree.step depth stage name = .error e := by
  obtain ⟨through, hstep⟩ := exists_step_eq tree depth
  rw [hstep, stepVia, h]
  rfl

theorem step_of_not_link {next : Place} (h : tree.entry stage.place name = .ok next)
    (hnode : ∀ target, tree.node? next ≠ some (.link target)) :
    tree.step depth stage name = .ok { stage with place := next } := by
  obtain ⟨through, hstep⟩ := exists_step_eq tree depth
  rw [hstep, stepVia, h]
  simp only [bind, Except.bind]
  split
  case h_1 target links hlink _ => exact absurd hlink (hnode target)
  case h_2 target hlink _ => exact absurd hlink (hnode target)
  case h_3 => rfl

theorem step_stay {searchable : Bool}
    (hnode : tree.node? stage.place = some (.directory searchable))
    (hentry : tree.entry stage.place name = .ok stage.place) :
    tree.step depth stage name = .ok stage :=
  step_of_not_link hentry fun _ hlink => nomatch hnode.symm.trans hlink

-- The name behind a slash at the end stays where it is, and asks for a directory.
theorem entry_nil_eq_ok_iff {next : Place} :
    tree.entry place [] = .ok next ↔
      next = place ∧ ∃ searchable, tree.node? place = some (.directory searchable) := by
  rw [entry]
  split
  case h_1 hnode => simp [hnode]
  case h_2 hnode => simp [hnode]
  case h_3 hnode => simp [hnode]
  case h_4 hnode => simp [hnode, eq_comm]

theorem step_nil_eq_ok {next : Stage} (h : tree.step depth stage [] = .ok next) :
    next = stage ∧ ∃ searchable, tree.node? stage.place = some (.directory searchable) := by
  cases hentry : tree.entry stage.place [] with
  | error e => cases (step_of_error hentry).symm.trans h
  | ok place =>
    obtain ⟨rfl, searchable, hnode⟩ := entry_nil_eq_ok_iff.mp hentry
    exact ⟨(Except.ok.inj ((step_stay hnode hentry).symm.trans h)).symm, searchable, hnode⟩

theorem step_stay_bind {next : Text} (hname : name = [] ∨ name = "." ∧ next ≠ []) (stage : Stage) :
    (tree.step depth stage name >>= fun stage => tree.step depth stage next) =
      tree.step depth stage next := by
  cases hnode : tree.node? stage.place with
  | none =>
    have hentry (name : Text) : tree.entry stage.place name = .error .notFound := by
      rw [entry, hnode]
    rw [step_of_error (hentry name), step_of_error (hentry next)]
    rfl
  | some node =>
    cases node with
    | file | link =>
      have hentry (name : Text) : tree.entry stage.place name = .error .notDirectory := by
        rw [entry, hnode]
      rw [step_of_error (hentry name), step_of_error (hentry next)]
      rfl
    | directory searchable =>
      rcases hname with rfl | ⟨rfl, hnext⟩
      · rw [step_stay hnode (entry_nil_eq_ok_iff.mpr ⟨rfl, searchable, hnode⟩)]
        rfl
      · cases searchable with
        | true =>
          rw [step_stay hnode (by rw [entry, hnode]; rfl)]
          rfl
        -- the point needs a search as well, so that it fails where the next name would have failed
        | false =>
          have hentry {name : Text} (hname : name ≠ []) :
              tree.entry stage.place name = .error .notPermitted := by
            rw [entry, hnode]
            exact if_neg (mt List.isEmpty_iff.mp hname)
          rw [step_of_error (hentry (by decide)), step_of_error (hentry hnext)]
          rfl

theorem walk_of_name (hname : ('/' : UInt8) ∉ name) (hempty : name ≠ []) (hnul : name.NulFree)
    (hshort : name.length ≤ longestPath) :
    tree.walk directory name = tree.step mostLinks ⟨directory, mostLinks⟩ name := by
  have hrelative : ¬name.isAbsolute := by
    intro h
    exact hname (List.mem_of_mem_head? (of_decide_eq_true h))
  rw [walk_of_short hempty hnul hshort, outset, if_neg hrelative, Text.split_of_not_mem hname]
  simp only [List.foldlM_cons, List.foldlM_nil, bind_pure]

theorem walk_append_cons (hname : ('/' : UInt8) ∉ name) {front : Text}
    (hnul : (front ++ ('/' : UInt8) :: name).NulFree)
    (hshort : (front ++ ('/' : UInt8) :: name).length ≤ longestPath) :
    tree.walk directory (front ++ ('/' : UInt8) :: name) =
      (Text.split '/' front).foldlM (tree.step mostLinks)
          (outset directory (front ++ ('/' : UInt8) :: name)) >>=
        fun stage => tree.step mostLinks stage name := by
  have hempty : front ++ ('/' : UInt8) :: name ≠ [] :=
    List.append_ne_nil_of_right_ne_nil front (List.cons_ne_nil _ name)
  rw [walk_of_short hempty hnul hshort, Text.split_append_cons, Text.split_of_not_mem hname,
    List.foldlM_append]
  simp only [List.foldlM_cons, List.foldlM_nil, bind_pure]

theorem not_isProgram_of_slash (hnul : path.NulFree) (hslash : path.getLast? = some ('/' : UInt8)) :
    ¬tree.isProgram directory path := by
  obtain ⟨front, rfl⟩ := List.getLast?_eq_some_iff.mp hslash
  intro h
  obtain ⟨place, hresolve, hnode⟩ := isProgram_iff.mp h
  obtain ⟨links, hwalk⟩ := resolve_eq_ok_iff.mp hresolve
  obtain ⟨-, hshort⟩ := short_of_walk hnul hwalk
  rw [walk_append_cons List.not_mem_nil hnul hshort] at hwalk
  obtain ⟨last, -, hlast⟩ := bind_eq_ok_iff.mp hwalk
  obtain ⟨rfl, searchable, hdirectory⟩ := step_nil_eq_ok hlast
  cases hnode.symm.trans hdirectory

-- A candidate is the entry of that name in the directory of its element, whether that is the current
-- one, or is written with a slash at its end, or without.
theorem walk_under (hname : ('/' : UInt8) ∉ name) (hempty : name ≠ [])
    (hnul : (element.under name).NulFree) (hshort : (element.under name).length ≤ longestPath) :
    tree.walk directory (element.under name) =
      tree.walk directory (Text.orElse element ".") >>= fun stage =>
        tree.step mostLinks stage name := by
  by_cases hcurrent : element = [] ∨ element = "."
  · have hpoint : Text.orElse element "." = "." := by rcases hcurrent with rfl | rfl <;> rfl
    rw [Text.under, if_pos hcurrent] at hnul hshort ⊢
    rw [hpoint, walk_of_name hname hempty hnul hshort,
      walk_of_name (by decide) (by decide) (by decide) (by decide),
      step_stay_bind (.inr ⟨rfl, hempty⟩)]
  have hnamed : element ≠ [] := fun h => hcurrent (.inl h)
  have helement : Text.orElse element "." = element := if_neg (mt List.isEmpty_iff.mp hnamed)
  rw [Text.under, if_neg hcurrent] at hnul hshort ⊢
  rw [helement]
  split at hnul
  case isTrue hslash =>
    rw [if_pos hslash] at hshort ⊢
    have habsolute := Text.isAbsolute_append hnamed name
    obtain ⟨front, rfl⟩ := List.getLast?_eq_some_iff.mp hslash
    have hfront := (Text.nulFree_append_iff.mp hnul).1
    rw [List.append_assoc, List.singleton_append] at hnul hshort habsolute ⊢
    have hwithin : (front ++ [('/' : UInt8)]).length ≤ longestPath := by
      simp only [List.length_append, List.length_cons, List.length_nil] at hshort ⊢
      omega
    rw [walk_append_cons hname hnul hshort, walk_append_cons List.not_mem_nil hfront hwithin,
      outset, outset, habsolute, bind_assoc]
    -- the empty name behind the slash of the element is a step more, which stays where it is
    simp only [step_stay_bind (.inl rfl)]
  case isFalse hslash =>
    rw [if_neg hslash] at hshort ⊢
    have habsolute := Text.isAbsolute_append hnamed (('/' : UInt8) :: name)
    have hpath : element ++ "/" ++ name = element ++ ('/' : UInt8) :: name :=
      List.append_assoc element _ name
    rw [hpath] at hnul hshort ⊢
    have hwithin : element.length ≤ longestPath := by
      simp only [List.length_append] at hshort
      omega
    rw [walk_append_cons hname hnul hshort,
      walk_of_short hnamed (Text.nulFree_append_iff.mp hnul).1 hwithin, outset, outset, habsolute]

-- The empty name is found nowhere: what is left of a candidate is the directory.
theorem not_isProgram_under_nil (hnul : element.NulFree) :
    ¬tree.isProgram directory (element.under []) := by
  unfold Text.under
  split
  case isTrue =>
    intro h
    obtain ⟨place, hresolve, -⟩ := isProgram_iff.mp h
    cases hresolve
  case isFalse =>
    split
    case isTrue hslash =>
      rw [List.append_nil]
      exact not_isProgram_of_slash hnul hslash
    case isFalse =>
      rw [List.append_nil]
      refine not_isProgram_of_slash (Text.nulFree_append_iff.mpr ⟨hnul, by decide⟩) ?_
      exact List.getLast?_concat

end FileTree

theorem findExecutable_eq (tree : FileTree) (directory : Place) (searchPath : Option Text)
    {name : Text} (hname : ('/' : UInt8) ∉ name) (hempty : name ≠ []) :
    findExecutable tree directory searchPath name =
      ((Text.split ':' (searchPath.getD "/usr/bin:/bin")).map (Text.under · name)).find?
        fun path => tree.isProgram directory path || tree.isSearchable directory path := by
  have hslash : ¬name.contains ('/' : UInt8) := by rwa [List.contains_iff_mem]
  rw [findExecutable, if_neg (mt List.isEmpty_iff.mp hempty), if_neg hslash, candidates_eq]
  simp only [← FileTree.accessible_eq]
  rfl

theorem nulFree_of_mem_searchPath {searchPath : Option Text} {element : Text}
    (hsearch : ∀ path ∈ searchPath, path.NulFree)
    (h : element ∈ Text.split ':' (searchPath.getD "/usr/bin:/bin")) : element.NulFree := by
  have hwhole : (searchPath.getD "/usr/bin:/bin").NulFree := by
    cases searchPath with
    | none => decide
    | some path => exact hsearch path rfl
  rw [← Text.join_split ':' (searchPath.getD "/usr/bin:/bin"),
    Text.nulFree_join_iff (by decide)] at hwhole
  exact hwhole element h

-- A name is looked for among the entries of that name in the directories of the search path, the
-- empty element of which is the current directory. The first program is found, and nothing exactly
-- if there is none, unless a searchable directory of that name comes first: then it is a directory
-- that is found. The empty name is found nowhere.
theorem executable_of_search (tree : FileTree) (directory : Place) {searchPath : Option Text}
    {name : Text} (hsearch : ∀ path ∈ searchPath, path.NulFree) (hname : ('/' : UInt8) ∉ name) :
    let listed := (Text.split ':' (searchPath.getD "/usr/bin:/bin")).map (Text.under · name)
    let found := findExecutable tree directory searchPath name
    let isProgram := tree.isProgram directory
    let isSearchable := tree.isSearchable directory
    (name = [] ∨ ¬LedBy isSearchable isProgram listed →
      found = listed.find? isProgram ∧ (found = none ↔ ∀ path ∈ listed, ¬isProgram path)) ∧
    (name ≠ [] → LedBy isSearchable isProgram listed →
      ∃ path, found = some path ∧ isSearchable path ∧ ¬isProgram path) ∧
    ∀ element, name ≠ [] → (element.under name).NulFree →
      (element.under name).length ≤ FileTree.longestPath →
        tree.walk directory (element.under name) =
          tree.walk directory (Text.orElse element ".") >>= fun stage =>
            tree.step FileTree.mostLinks stage name := by
  intro listed found isProgram isSearchable
  have hexclusive (path : Text) : isProgram path → ¬isSearchable path :=
    FileTree.not_isSearchable_of_isProgram
  refine ⟨fun h => ?_, fun hempty hled => ?_,
    fun element hempty => FileTree.walk_under hname hempty⟩
  · have hfound : found = listed.find? isProgram := by
      by_cases hempty : name = []
      · have hnone : listed.find? isProgram = none := by
          refine List.find?_eq_none.mpr (List.forall_mem_map.mpr fun element helement => ?_)
          rw [hempty]
          exact FileTree.not_isProgram_under_nil (nulFree_of_mem_searchPath hsearch helement)
        rw [hnone]
        exact if_pos (List.isEmpty_iff.mpr hempty)
      · exact (findExecutable_eq tree directory searchPath hname hempty).trans
          (find?_or_of_not_ledBy (h.resolve_left hempty))
    refine ⟨hfound, ?_⟩
    rw [hfound, List.find?_eq_none]
  · obtain ⟨path, hfind, hpath⟩ := find?_or_of_ledBy hled
    exact ⟨path, (findExecutable_eq tree directory searchPath hname hempty).trans hfind, hpath,
      fun hprogram => hexclusive path hprogram hpath⟩

-- In front of the program there are a directory that cannot be searched and a file that cannot be
-- executed, and behind it a directory that can. The program is in the current directory, and is a
-- link to one elsewhere.
theorem executable_of_search_at_home :
    let tree : FileTree :=
      ⟨[(["etc"], .directory true), (["etc", "w"], .directory false), (["opt"], .directory true),
        (["opt", "w"], .file false), (["home"], .directory true), (["home", "w"], .link "../srv/x"),
        (["srv"], .directory true), (["srv", "w"], .directory true), (["srv", "x"], .file true)]⟩
    let listed : List Text := ["/etc/w", "/opt/w", "w", "/srv/w"]
    (∀ path ∈ some (Text.ofString "/etc:/opt::/srv/"), path.NulFree) ∧
      ('/' : UInt8) ∉ Text.ofString "w" ∧
      ¬LedBy (tree.isSearchable ["home"]) (tree.isProgram ["home"]) listed ∧
      findExecutable tree ["home"] (some "/etc:/opt::/srv/") "w" = some "w" := by
  intro tree listed
  have hsearch : ∀ path ∈ some (Text.ofString "/etc:/opt::/srv/"), path.NulFree := by decide
  have hname : ('/' : UInt8) ∉ Text.ofString "w" := by decide
  have hled : ¬LedBy (tree.isSearchable ["home"]) (tree.isProgram ["home"]) listed := by
    decide +kernel
  obtain ⟨hfirst, -, -⟩ := executable_of_search tree ["home"] hsearch hname
  obtain ⟨hfound, -⟩ := hfirst (.inr hled)
  exact ⟨hsearch, hname, hled, hfound.trans (by decide +kernel)⟩

-- A directory has the name that is looked for, and the program of that name comes later.
theorem directory_found_for_program :
    let tree : FileTree :=
      ⟨[(["a"], .directory true), (["a", "x"], .directory true), (["b"], .directory true),
        (["b", "x"], .file true)]⟩
    let listed : List Text := ["a/x", "b/x"]
    candidates "a:b" "x" = listed ∧ listed.find? (tree.isProgram []) = some "b/x" ∧
      findExecutable tree [] (some "a:b") "x" = some "a/x" ∧ tree.isSearchable [] "a/x" ∧
      ¬tree.isProgram [] "a/x" := by
  decide

end Foreman
