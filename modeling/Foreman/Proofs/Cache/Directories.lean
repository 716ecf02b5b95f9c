import Foreman.Proofs.Cache.Sequences
import Foreman.Proofs.Text.Path

namespace Foreman.CacheConf

variable {conf : CacheConf} {value : Text}

theorem checkDir_of_relative {own : DirSettings} (hempty : own.dir ≠ [])
    (hrelative : ¬own.dir.isAbsolute) (tag : CacheTag) :
    checkDir tag own = .error ("dir must be absolute for " ++ tag.name ++ " cache") := by
  have hgiven : own.dir.isEmpty = false := List.isEmpty_eq_false_iff.mpr hempty
  rw [checkDir, if_neg]
  rwa [hgiven, Bool.false_or]

theorem check_of_relative {dir : Text} (hdir : conf.get .dir = some (.text dir)) (hempty : dir ≠ [])
    (hrelative : ¬dir.isAbsolute) :
    conf.check = .error ("dir must be absolute for " ++ conf.tag.name ++ " cache") := by
  obtain ⟨push, enabled, settings⟩ := conf
  cases settings with
  | dir own =>
    cases hdir
    exact checkDir_of_relative hempty hrelative .dir
  | sharedDir own group =>
    cases hdir
    unfold check
    dsimp only
    rw [checkDir_of_relative hempty hrelative]
    rfl
  | http own | daemon service | plain tag => cases hdir

def directoryEntry (value : Text) : Text × Text :=
  ("dir", value)

theorem directory_of_takes {before after : List (Text × Text)} {left : CacheConf}
    (hafter : ∀ e ∈ after, e.1 ≠ "dir")
    (h : conf.Takes (before ++ directoryEntry value :: after) left) :
    left.get .dir = some (.text value.withSlash) ∧ left.tag = conf.tag ∧
      (configure (before ++ directoryEntry value :: after)).Yields conf
        (left.check.mapError .plain) left := by
  have hread : Field.dir.read value = .ok (.text value.withSlash) := rfl
  have hyields := configure_of_takes h
  have hget : (configure (before ++ directoryEntry value :: after) conf).state.get .dir =
      some (.text value.withSlash) :=
    get_of_last_accepted hread hafter (takes_iff.mp ⟨left, h⟩)
  have hkind := kind_configure (before ++ directoryEntry value :: after) conf
  rw [hyields.2] at hget hkind
  exact ⟨hget, tag_eq_of_kind_eq hkind, hyields⟩

-- A relative directory is seen as such, unless it is empty or a point.
theorem rejected_of_relative {before after : List (Text × Text)} {left : CacheConf}
    (hafter : ∀ e ∈ after, e.1 ≠ "dir")
    (h : conf.Takes (before ++ directoryEntry value :: after) left) (hempty : value ≠ [])
    (hpoint : value ≠ ".") (hrelative : ¬value.isAbsolute) :
    (configure (before ++ directoryEntry value :: after) conf).result =
      .error (.plain ("dir must be absolute for " ++ conf.tag.name ++ " cache")) := by
  obtain ⟨hget, htag, hresult, -⟩ := directory_of_takes hafter h
  rw [← Text.isAbsolute_withSlash hempty hpoint] at hrelative
  rw [hresult, check_of_relative hget (Text.withSlash_ne_nil hempty hpoint) hrelative, htag]
  rfl

-- A list of entries, the last of which that is about the directory gives `value`. If the list is
-- accepted, then the value is absolute and the directory is the value with a slash at its end,
-- unless the value is empty or a point: in the place of the one the check finds the root, and in the
-- place of the other no directory at all. Every other value that is not absolute is rejected, as
-- long as all entries are taken.
theorem directory_of_accepted (conf : CacheConf) (before : List (Text × Text)) (value : Text)
    {after : List (Text × Text)} (hafter : ∀ e ∈ after, e.1 ≠ "dir") :
    let outcome := configure (before ++ directoryEntry value :: after) conf
    (outcome.result = .ok () → ∃ dir, outcome.state.get .dir = some (.text dir) ∧
      (value.isAbsolute ∧
          dir = (if value.getLast? = some ('/' : UInt8) then value else value ++ "/") ↔
        value ≠ [] ∧ value ≠ ".") ∧
      (value = [] → dir = "/") ∧ (value = "." → dir = [])) ∧
    (∀ left, conf.Takes (before ++ directoryEntry value :: after) left →
      value ≠ [] → value ≠ "." → ¬value.isAbsolute →
        outcome.result =
          .error (.plain ("dir must be absolute for " ++ conf.tag.name ++ " cache"))) := by
  intro outcome
  refine ⟨fun hok => ?_, fun left htakes => rejected_of_relative hafter htakes⟩
  obtain ⟨left, htakes⟩ := takes_iff.mpr (accepted_of_configure hok)
  obtain ⟨hget, -, -, hstate⟩ := directory_of_takes hafter htakes
  refine ⟨value.withSlash, hstate ▸ hget, ⟨?_, ?_⟩, ?_, ?_⟩
  · rintro ⟨habsolute, -⟩
    constructor
    · rintro rfl
      cases habsolute
    · rintro rfl
      exact absurd habsolute (by decide)
  · rintro ⟨hempty, hpoint⟩
    refine ⟨?_, Text.withSlash_of_named hempty hpoint⟩
    by_cases habsolute : value.isAbsolute
    · exact habsolute
    · have hrejected := rejected_of_relative hafter htakes hempty hpoint habsolute
      rw [hrejected] at hok
      cases hok
  · rintro rfl
    exact Text.withSlash_empty
  · rintro rfl
    exact Text.withSlash_point

-- A directory in the middle of a list, given before as another one.
theorem directory_of_shared_cache :
    let conf : CacheConf := { settings := .sharedDir {} [] }
    let before : List (Text × Text) := [("dir", "old"), ("group", "team")]
    let after : List (Text × Text) := [("enabled", "no")]
    (∀ e ∈ after, e.1 ≠ "dir") ∧
      (configure (before ++ directoryEntry "/c" :: after) conf).result = .ok () ∧
      (configure (before ++ directoryEntry "/c" :: after) conf).state.get .dir =
        some (.text "/c/") ∧
      (configure (before ++ directoryEntry "c" :: after) conf).result =
        .error (.plain ("dir must be absolute for " ++ conf.tag.name ++ " cache")) := by
  intro conf before after
  have hafter : ∀ e ∈ after, e.1 ≠ "dir" := by decide
  have hok : (configure (before ++ directoryEntry "/c" :: after) conf).result = .ok () := rfl
  obtain ⟨haccepted, -⟩ := directory_of_accepted conf before "/c" hafter
  obtain ⟨-, hrejected⟩ := directory_of_accepted conf before "c" hafter
  obtain ⟨dir, hget, hiff, -⟩ := haccepted hok
  obtain ⟨-, rfl⟩ := hiff.mpr (by decide)
  have htakes : ∃ left, conf.Takes (before ++ directoryEntry "c" :: after) left :=
    takes_iff.mpr (by decide)
  obtain ⟨left, htakes⟩ := htakes
  exact ⟨hafter, hok, hget, hrejected left htakes (by decide) (by decide) (by decide)⟩

-- Both values are accepted, and neither is absolute.
theorem directory_not_absolute :
    let conf : CacheConf := { settings := .dir {} }
    (configure [directoryEntry "."] conf).result = .ok () ∧
      (configure [directoryEntry "."] conf).state.get .dir = some (.text []) ∧
      (configure [directoryEntry ""] conf).result = .ok () ∧
      (configure [directoryEntry ""] conf).state.get .dir = some (.text "/") ∧
      ¬Text.isAbsolute "." ∧ ¬Text.isAbsolute "" := by
  intro conf
  exact ⟨rfl, rfl, rfl, rfl, by decide, by decide⟩

end Foreman.CacheConf
