import Foreman.Proofs.Cache.Entries

namespace Foreman

inductive Field where
  | enabled
  | push
  | dir
  | size
  | group
  | allowUntrusted
  | allowInsecure
  | password
  | url
  | user
  | service
deriving DecidableEq

inductive Setting where
  | flag (b : Bool)
  | bytes (n : Nat)
  | text (t : Text)
deriving DecidableEq

namespace Field

def key : Field → Text
  | enabled => "enabled"
  | push => "push"
  | dir => "dir"
  | size => "size"
  | group => "group"
  | allowUntrusted => "allow_untrusted"
  | allowInsecure => "allow_insecure_protocol"
  | password => "password"
  | url => "url"
  | user => "user"
  | service => "service"

def readFlag (value : Text) : Except Text Setting :=
  match CacheConf.readFlag value with
  | some b => .ok (.flag b)
  | none => .error "not a boolean"

def read (field : Field) (value : Text) : Except Text Setting :=
  match field with
  | enabled | push | allowUntrusted | allowInsecure => readFlag value
  | size =>
    match Size.readBytes value with
    | .ok n => .ok (.bytes n)
    | .error e => .error e.message
  | dir => .ok (.text value.withSlash)
  | group | password | url | user | service => .ok (.text value)

end Field

def CacheSettings.get : CacheSettings → Field → Option Setting
  | .dir own, .dir => some (.text own.dir)
  | .dir own, .size => some (.bytes own.maxSize)
  | .sharedDir own _, .dir => some (.text own.dir)
  | .sharedDir own _, .size => some (.bytes own.maxSize)
  | .sharedDir _ group, .group => some (.text group)
  | .http own, .allowUntrusted => some (.flag own.allowUntrusted)
  | .http own, .allowInsecure => some (.flag own.allowInsecure)
  | .http own, .password => some (.text own.password)
  | .http own, .url => some (.text own.url)
  | .http own, .user => some (.text own.user)
  | .daemon service, .service => some (.text service)
  | _, _ => none

def CacheSettings.fields : CacheSettings → List Field
  | .dir _ => [.dir, .size, .enabled, .push]
  | .sharedDir _ _ => [.group, .dir, .size, .enabled, .push]
  | .http _ => [.allowUntrusted, .allowInsecure, .password, .url, .user, .enabled, .push]
  | .daemon _ => [.service, .enabled, .push]
  | .plain _ => [.enabled, .push]

attribute [ext] DirSettings HttpSettings

namespace CacheSettings

theorem get_enabled (settings : CacheSettings) : settings.get .enabled = none := by
  cases settings <;> rfl

theorem get_push (settings : CacheSettings) : settings.get .push = none := by
  cases settings <;> rfl

theorem ext_get {a b : CacheSettings} (hblank : a.blank = b.blank)
    (h : ∀ field, a.get field = b.get field) : a = b := by
  cases a with
  | dir own =>
    cases b with
    | dir own' =>
      have hdir : own.dir = own'.dir := Setting.text.inj (Option.some.inj (h .dir))
      have hsize : own.maxSize = own'.maxSize := Setting.bytes.inj (Option.some.inj (h .size))
      rw [DirSettings.ext hdir hsize]
    | sharedDir | http | daemon | plain => cases hblank
  | sharedDir own group =>
    cases b with
    | sharedDir own' group' =>
      have hdir : own.dir = own'.dir := Setting.text.inj (Option.some.inj (h .dir))
      have hsize : own.maxSize = own'.maxSize := Setting.bytes.inj (Option.some.inj (h .size))
      have hgroup : group = group' := Setting.text.inj (Option.some.inj (h .group))
      rw [DirSettings.ext hdir hsize, hgroup]
    | dir | http | daemon | plain => cases hblank
  | http own =>
    cases b with
    | http own' =>
      have huntrusted : own.allowUntrusted = own'.allowUntrusted :=
        Setting.flag.inj (Option.some.inj (h .allowUntrusted))
      have hinsecure : own.allowInsecure = own'.allowInsecure :=
        Setting.flag.inj (Option.some.inj (h .allowInsecure))
      have hpassword : own.password = own'.password :=
        Setting.text.inj (Option.some.inj (h .password))
      have hurl : own.url = own'.url := Setting.text.inj (Option.some.inj (h .url))
      have huser : own.user = own'.user := Setting.text.inj (Option.some.inj (h .user))
      rw [HttpSettings.ext hurl huntrusted hinsecure huser hpassword]
    | dir | sharedDir | daemon | plain => cases hblank
  | daemon service =>
    cases b with
    | daemon service' =>
      have hservice : service = service' := Setting.text.inj (Option.some.inj (h .service))
      rw [hservice]
    | dir | sharedDir | http | plain => cases hblank
  | plain tag =>
    cases b with
    | plain tag' => exact hblank
    | dir | sharedDir | http | daemon => cases hblank

end CacheSettings

-- What an entry says to configurations of a class.
inductive Meaning where
  | writes (field : Field) (setting : Setting)
  -- the tag, given as what it is
  | affirms
  | unknownKey
  | badValue (why : Text)

namespace Field

def meaning (field : Field) (value : Text) : Meaning :=
  match field.read value with
  | .ok setting => .writes field setting
  | .error why => .badValue why

end Field

namespace CacheConf

def get (conf : CacheConf) : Field → Option Setting
  | .enabled => some (.flag conf.enabled)
  | .push => some (.flag conf.push)
  | field => conf.settings.get field

def fields (conf : CacheConf) : List Field :=
  conf.settings.fields

theorem isSome_get_iff (conf : CacheConf) (field : Field) :
    (conf.get field).isSome ↔ field ∈ conf.fields := by
  cases conf with
  | mk push enabled settings =>
    cases settings <;> cases field <;> simp [get, CacheSettings.get, fields, CacheSettings.fields]

theorem fields_eq_of_kind_eq {a b : CacheConf} (h : a.kind = b.kind) : a.fields = b.fields := by
  have hblank (settings : CacheSettings) : settings.blank.fields = settings.fields := by
    cases settings <;> rfl
  rw [fields, ← hblank, ← kind, h, kind, hblank, fields]

-- Configurations of one class that hold the same in all fields are the same.
theorem ext_get {a b : CacheConf} (hkind : a.kind = b.kind)
    (h : ∀ field, a.get field = b.get field) : a = b := by
  obtain ⟨push, enabled, settings⟩ := a
  obtain ⟨push', enabled', settings'⟩ := b
  have hpush : push = push' := Setting.flag.inj (Option.some.inj (h .push))
  have henabled : enabled = enabled' := Setting.flag.inj (Option.some.inj (h .enabled))
  have hsettings : settings = settings' := by
    refine CacheSettings.ext_get hkind fun field => ?_
    have hfield := h field
    cases field with
    | enabled => rw [settings.get_enabled, settings'.get_enabled]
    | push => rw [settings.get_push, settings'.get_push]
    | _ => exact hfield
  rw [hpush, henabled, hsettings]

-- What an entry says that is about none of the fields.
def tagMeaning (conf : CacheConf) (key value : Text) : Meaning :=
  if key = "tag" then
    match (Enumeration.ofName value : Except Text CacheTag) with
    | .error why => .badValue why
    | .ok tag =>
      if tag = conf.tag then .affirms else .badValue ("tag mismatch with " ++ conf.tag.name)
  else .unknownKey

def meaningAmong (conf : CacheConf) (key value : Text) : List Field → Meaning
  | [] => conf.tagMeaning key value
  | field :: rest =>
    if key = field.key then field.meaning value else conf.meaningAmong key value rest

def meaning (conf : CacheConf) (key value : Text) : Meaning :=
  conf.meaningAmong key value conf.fields

theorem meaning_eq_of_kind_eq {a b : CacheConf} (h : a.kind = b.kind) (key value : Text) :
    a.meaning key value = b.meaning key value := by
  have hamong (fields : List Field) :
      a.meaningAmong key value fields = b.meaningAmong key value fields := by
    induction fields with
    | nil => simp only [meaningAmong, tagMeaning, tag_eq_of_kind_eq h]
    | cons field rest ih => simp only [meaningAmong, ih]
  rw [meaning, hamong, fields_eq_of_kind_eq h, meaning]

def Writes (conf : CacheConf) (field : Field) (setting : Setting) (after : CacheConf) : Prop :=
  ∀ other, after.get other = if other = field then some setting else conf.get other

inductive Enters (conf : CacheConf) : Meaning → EntryOutcome → Prop where
  | writes {field : Field} {setting : Setting} {after : CacheConf}
      (h : conf.Writes field setting after) : Enters conf (.writes field setting) (.applied after)
  | affirms : Enters conf .affirms (.applied conf)
  | unknownKey : Enters conf .unknownKey .unknownKey
  | badValue {why : Text} : Enters conf (.badValue why) (.badValue why)

variable {conf : CacheConf} {key value : Text}

theorem enters_setFlag {field : Field} {set : Bool → CacheConf}
    (hread : field.read value = Field.readFlag value)
    (hset : ∀ b, conf.Writes field (.flag b) (set b)) :
    conf.Enters (field.meaning value) (setFlag value set) := by
  unfold Field.meaning setFlag
  rw [hread, Field.readFlag]
  cases readFlag value with
  | none => exact .badValue
  | some b => exact .writes (hset b)

theorem enters_cons {field : Field} {rest : List Field} {found missed : EntryOutcome}
    (hfound : conf.Enters (field.meaning value) found)
    (hmissed : conf.Enters (conf.meaningAmong key value rest) missed) :
    conf.Enters (conf.meaningAmong key value (field :: rest))
      (if key = field.key then found else missed) := by
  unfold meaningAmong
  by_cases h : key = field.key
  · rwa [if_pos h, if_pos h]
  · rwa [if_neg h, if_neg h]

theorem enters_commonEntry (conf : CacheConf) (key value : Text) :
    conf.Enters (conf.meaningAmong key value [.enabled, .push]) (commonEntry conf key value) := by
  refine enters_cons (enters_setFlag rfl fun b => ?_)
    (enters_cons (enters_setFlag rfl fun b => ?_) ?_)
  · exact fun other => by cases other <;> rfl
  · exact fun other => by cases other <;> rfl
  · change conf.Enters (conf.tagMeaning key value) _
    unfold tagMeaning
    by_cases htag : key = "tag"
    · rw [if_pos htag, if_pos htag]
      cases (Enumeration.ofName value : Except Text CacheTag) with
      | error why => exact .badValue
      | ok tag =>
        by_cases hsame : tag = conf.tag
        · simp only [if_pos hsame]
          exact .affirms
        · simp only [if_neg hsame]
          exact .badValue
    · rw [if_neg htag, if_neg htag]
      exact .unknownKey

theorem enters_dirEntry {dir : DirSettings} {set : DirSettings → CacheSettings}
    (hset : set = .dir ∨ ∃ group, set = fun dir => .sharedDir dir group)
    (hsettings : conf.settings = set dir) :
    conf.Enters (conf.meaningAmong key value [.dir, .size, .enabled, .push])
      (dirEntry conf dir set key value) := by
  have hdir : conf.Writes .dir (.text value.withSlash)
      { conf with settings := set { dir with dir := value.withSlash } } := by
    obtain ⟨push, enabled, settings⟩ := conf
    cases hsettings
    rcases hset with rfl | ⟨group, rfl⟩ <;> exact fun other => by cases other <;> rfl
  have hsize (n : Nat) : conf.Writes .size (.bytes n)
      { conf with settings := set { dir with maxSize := n } } := by
    obtain ⟨push, enabled, settings⟩ := conf
    cases hsettings
    rcases hset with rfl | ⟨group, rfl⟩ <;> exact fun other => by cases other <;> rfl
  refine enters_cons (.writes hdir) (enters_cons ?_ (enters_commonEntry conf key value))
  unfold Field.meaning Field.read
  cases Size.readBytes value with
  | error e => exact .badValue
  | ok n => exact .writes (hsize n)

theorem enters_httpEntry {http : HttpSettings} (hsettings : conf.settings = .http http) :
    conf.Enters
      (conf.meaningAmong key value
        [.allowUntrusted, .allowInsecure, .password, .url, .user, .enabled, .push])
      (httpEntry conf http key value) := by
  obtain ⟨push, enabled, settings⟩ := conf
  cases hsettings
  refine enters_cons (enters_setFlag rfl fun b => ?_) (enters_cons (enters_setFlag rfl fun b => ?_)
    (enters_cons (.writes ?_) (enters_cons (.writes ?_) (enters_cons (.writes ?_)
      (enters_commonEntry _ key value))))) <;>
    exact fun other => by cases other <;> rfl

theorem enters (conf : CacheConf) (key value : Text) :
    conf.Enters (conf.meaning key value) (conf.entry key value) := by
  unfold meaning fields entry
  cases hsettings : conf.settings with
  | dir dir => exact enters_dirEntry (.inl rfl) hsettings
  | sharedDir dir group =>
    refine enters_cons (.writes ?_) (enters_dirEntry (.inr ⟨group, rfl⟩) hsettings)
    obtain ⟨push, enabled, settings⟩ := conf
    cases hsettings
    exact fun other => by cases other <;> rfl
  | http http => exact enters_httpEntry hsettings
  | daemon service =>
    refine enters_cons (.writes ?_) (enters_commonEntry conf key value)
    obtain ⟨push, enabled, settings⟩ := conf
    cases hsettings
    exact fun other => by cases other <;> rfl
  | plain tag => exact enters_commonEntry conf key value

end CacheConf

namespace Field

theorem key_injective {f g : Field} (h : f.key = g.key) : f = g := by
  cases f <;> cases g <;> first | rfl | exact absurd h (by decide)

theorem key_ne_tag (f : Field) : f.key ≠ "tag" := by
  cases f <;> decide

end Field

namespace CacheConf

variable {conf : CacheConf} {key value : Text} {field : Field} {setting : Setting}

theorem meaning_cases (conf : CacheConf) (key value : Text) :
    (∃ field ∈ conf.fields, key = field.key ∧ conf.meaning key value = field.meaning value) ∨
      ((∀ field ∈ conf.fields, key ≠ field.key) ∧
        conf.meaning key value = conf.tagMeaning key value) := by
  unfold meaning
  induction conf.fields with
  | nil => exact .inr ⟨fun _ h => absurd h List.not_mem_nil, rfl⟩
  | cons f rest ih =>
    unfold meaningAmong
    by_cases hkey : key = f.key
    · exact .inl ⟨f, List.mem_cons_self, hkey, if_pos hkey⟩
    · rw [if_neg hkey]
      rcases ih with ⟨field, hfield, h, hmeaning⟩ | ⟨hnone, hmeaning⟩
      · exact .inl ⟨field, List.mem_cons_of_mem f hfield, h, hmeaning⟩
      · exact .inr ⟨List.forall_mem_cons.mpr ⟨hkey, hnone⟩, hmeaning⟩

theorem tagMeaning_of_ne (conf : CacheConf) (value : Text) (h : key ≠ "tag") :
    conf.tagMeaning key value = .unknownKey :=
  if_neg h

theorem tagMeaning_ne_writes (conf : CacheConf) (key value : Text) :
    conf.tagMeaning key value ≠ .writes field setting := by
  unfold tagMeaning
  split
  · split
    · exact Meaning.noConfusion
    · split <;> exact Meaning.noConfusion
  · exact Meaning.noConfusion

theorem meaning_of_key (conf : CacheConf) (field : Field) (value : Text) :
    conf.meaning field.key value =
      if field ∈ conf.fields then field.meaning value else .unknownKey := by
  rcases conf.meaning_cases field.key value with ⟨f, hf, hkey, hmeaning⟩ | ⟨hnone, hmeaning⟩
  · cases Field.key_injective hkey
    rw [if_pos hf, hmeaning]
  · have hfield : field ∉ conf.fields := fun h => hnone field h rfl
    rw [if_neg hfield, hmeaning, tagMeaning_of_ne conf value field.key_ne_tag]

theorem key_of_writes (h : conf.meaning key value = .writes field setting) : key = field.key := by
  rcases conf.meaning_cases key value with ⟨f, -, hkey, hmeaning⟩ | ⟨-, hmeaning⟩
  · rw [h, Field.meaning] at hmeaning
    cases hread : f.read value with
    | error why =>
      rw [hread] at hmeaning
      cases hmeaning
    | ok x =>
      rw [hread] at hmeaning
      cases hmeaning
      exact hkey
  · exact absurd (hmeaning.symm.trans h) (tagMeaning_ne_writes conf key value)

end CacheConf

end Foreman
