import Foreman.Proofs.Cache.Sequences

namespace Foreman.CacheConf

-- What accepted lists of entries make of a fresh configuration of a type.
inductive Configured (tag : CacheTag) : CacheConf → Prop where
  | fresh {conf : CacheConf} (hmake : make tag = .ok conf) : Configured tag conf
  | configure {conf : CacheConf} {entries : List (Text × Text)} (h : Configured tag conf)
      (hok : (CacheConf.configure entries conf).result = .ok ()) :
      Configured tag (CacheConf.configure entries conf).state

def Unlocked (conf : CacheConf) : Prop :=
  ∀ own, conf.settings = .http own → own.password = []

variable {tag : CacheTag} {conf fresh : CacheConf}

namespace Configured

theorem kind_eq (h : Configured tag conf) (hmake : make tag = .ok fresh) :
    conf.kind = fresh.kind := by
  induction h with
  | fresh hmade =>
    rw [hmade] at hmake
    cases hmake
    rfl
  | configure _ _ ih => exact (kind_configure _ _).trans ih

theorem check (h : Configured tag conf) (htag : tag.isA .remote) : conf.check = .ok () := by
  cases h with
  | fresh hmade =>
    cases tag with
    | http | daemon =>
      cases hmade
      rfl
    | none | any | dir | sharedDir | remote => cases hmade <;> exact absurd htag (by decide)
  | configure _ hok => exact check_of_configure hok

end Configured

theorem setFlag_writeFlag (b : Bool) (set : Bool → CacheConf) :
    setFlag (writeFlag b) set = .applied (set b) := by
  cases b <;> rfl

theorem entry_tag (conf : CacheConf) : conf.entry "tag" conf.tag.name = .applied conf := by
  obtain ⟨push, enabled, settings⟩ := conf
  cases settings with
  | dir | sharedDir | http | daemon => rfl
  | plain tag => cases tag <;> rfl

theorem entry_enabled (conf : CacheConf) (b : Bool) :
    conf.entry "enabled" (writeFlag b) = .applied { conf with enabled := b } := by
  obtain ⟨push, enabled, settings⟩ := conf
  cases settings <;> exact setFlag_writeFlag b _

theorem entry_push (conf : CacheConf) (b : Bool) :
    conf.entry "push" (writeFlag b) = .applied { conf with push := b } := by
  obtain ⟨push, enabled, settings⟩ := conf
  cases settings <;> exact setFlag_writeFlag b _

-- What all descriptions start with is taken by all classes, so that the rest decides.
theorem configure_description (htag : fresh.tag = conf.tag) {result : Except Failure Unit}
    {left : CacheConf}
    (hrest : (configure (ownDescription conf.settings)).Yields
      { fresh with push := conf.push, enabled := conf.enabled } result left) :
    (configure conf.description).Yields fresh result left := by
  have hown : fresh.entry "tag" conf.tag.name = .applied fresh := htag ▸ entry_tag fresh
  have hcommon : fresh.Takes
      [("tag", conf.tag.name), ("enabled", writeFlag conf.enabled), ("push", writeFlag conf.push)]
      { fresh with push := conf.push, enabled := conf.enabled } :=
    .cons hown (.cons (entry_enabled fresh conf.enabled) (.cons (entry_push _ conf.push) (.nil _)))
  obtain ⟨hresult, hstate⟩ := configure_append_of_takes hcommon (ownDescription conf.settings)
  exact ⟨hresult.trans hrest.1, hstate.trans hrest.2⟩

theorem takes_httpDescription {own : HttpSettings} (h : own.password = []) (push enabled : Bool) :
    Takes ⟨push, enabled, .http {}⟩ (httpDescription own) ⟨push, enabled, .http own⟩ := by
  obtain ⟨url, untrusted, insecure, user, password⟩ := own
  cases h
  exact .cons rfl (.cons (setFlag_writeFlag untrusted _) (.cons (setFlag_writeFlag insecure _)
    (.cons rfl (.nil _))))

-- The settings of remote caches are shown under the words that they are given under.
theorem takes_ownDescription (hmake : make tag = .ok fresh) (hremote : tag.isA .remote)
    (hkind : conf.kind = fresh.kind) (hunlocked : conf.Unlocked) :
    Takes { fresh with push := conf.push, enabled := conf.enabled } (ownDescription conf.settings)
      conf := by
  obtain ⟨push, enabled, settings⟩ := conf
  cases tag with
  | http =>
    cases hmake
    cases settings with
    | http own => exact takes_httpDescription (hunlocked own rfl) push enabled
    | dir | sharedDir | daemon | plain => cases hkind
  | daemon =>
    cases hmake
    cases settings with
    | daemon service => exact .cons rfl (.nil _)
    | dir | sharedDir | http | plain => cases hkind
  | none | any | dir | sharedDir | remote => cases hmake <;> exact absurd hremote (by decide)

-- No class reads the word that a directory is shown under.
theorem stops_dirDescription (conf : CacheConf) (own : DirSettings) :
    conf.Stops (dirDescription own) conf (wrongKey conf.tag "dir_s") := by
  refine @Stops.intro conf [] _ _ _ _ (.nil conf) (.unknownKey ?_)
  obtain ⟨push, enabled, settings⟩ := conf
  cases settings <;> rfl

theorem stops_ownDescription (hmake : make tag = .ok fresh) (hdir : tag.isA .dir)
    (hkind : conf.kind = fresh.kind) (start : CacheConf) :
    start.Stops (ownDescription conf.settings) start (wrongKey start.tag "dir_s") := by
  obtain ⟨push, enabled, settings⟩ := conf
  cases tag with
  | dir | sharedDir =>
    cases hmake
    cases settings with
    | dir own => exact stops_dirDescription start own
    | sharedDir own group => exact (stops_dirDescription start own).append _
    | http | daemon | plain => cases hkind
  | none | any | remote | http | daemon => cases hmake <;> exact absurd hdir (by decide)

theorem tag_of_make (hmake : make tag = .ok fresh) :
    fresh.tag = tag ∧ (tag.isA .remote ∨ tag.isA .dir) := by
  cases tag <;> cases hmake <;> exact ⟨rfl, by decide⟩

-- A description, fed to a fresh configuration of the same type. For remote caches it is accepted
-- and gives an equal configuration. For caches in a directory, the only others that can be made, it
-- is turned down at the directory, and what was set before that is left.
theorem description_fed_back (h : Configured tag conf) (hunlocked : conf.Unlocked)
    (hmake : make tag = .ok fresh) :
    (tag.isA .remote ∨ tag.isA .dir) ∧
    (tag.isA .remote → (configure conf.description).Yields fresh (.ok ()) conf) ∧
    (tag.isA .dir → (configure conf.description).Yields fresh (.error (wrongKey tag "dir_s"))
      { fresh with push := conf.push, enabled := conf.enabled }) := by
  obtain ⟨htag, hclass⟩ := tag_of_make hmake
  have hkind := h.kind_eq hmake
  have hsame := (tag_eq_of_kind_eq hkind).symm
  refine ⟨hclass, fun hremote => ?_, fun hdir => ?_⟩
  · have hown := configure_of_takes (takes_ownDescription hmake hremote hkind hunlocked)
    rw [h.check hremote] at hown
    exact configure_description hsame hown
  · let start : CacheConf := { fresh with push := conf.push, enabled := conf.enabled }
    have hstart : start.tag = tag := htag
    have hown := configure_of_stops (stops_ownDescription hmake hdir hkind start)
    rw [hstart] at hown
    exact configure_description hsame hown

-- An address that was given with a permission.
theorem description_of_http_fed_back :
    ∃ fresh conf : CacheConf, make .http = .ok fresh ∧ Configured .http conf ∧ conf.Unlocked ∧
      conf.settings = .http { url := "http://cache", allowInsecure := true } ∧
      (configure conf.description).Yields fresh (.ok ()) conf := by
  let fresh : CacheConf := { settings := .http {} }
  let entries : List (Text × Text) := [("url", "http://cache"), ("allow_insecure_protocol", "yes")]
  have hmake : make .http = .ok fresh := rfl
  have hconf : Configured .http (configure entries fresh).state := .configure (.fresh hmake) rfl
  have hunlocked : (configure entries fresh).state.Unlocked := fun own hown => by
    cases hown
    rfl
  obtain ⟨-, hremote, -⟩ := description_fed_back hconf hunlocked hmake
  exact ⟨fresh, _, hmake, hconf, hunlocked, rfl, hremote rfl⟩

-- A directory is given and shown, and what is shown is turned down.
theorem description_of_dir_refused :
    ∃ fresh conf : CacheConf, make .dir = .ok fresh ∧ Configured .dir conf ∧ conf.Unlocked ∧
      conf.settings = .dir { dir := "/c/" } ∧
      (configure conf.description fresh).result =
        .error (.plain "wrong key (dir_s) for build cache of type dir") := by
  let fresh : CacheConf := { settings := .dir {} }
  have hmake : make .dir = .ok fresh := rfl
  refine ⟨fresh, (configure [("dir", "/c")] fresh).state, hmake, .configure (.fresh hmake) rfl, ?_,
    rfl, rfl⟩
  rintro own ⟨⟩

end Foreman.CacheConf
