import Foreman.Cache.Instantiators
import Foreman.Cache.Typed
import Foreman.Runs.Checks.Basic

namespace Foreman.Checks

open Check

def makeTiers (inst : Option Instantiator) : Act Unit Tiers :=
  Tiers.start Registry.builtin inst

def withTiers (body : Act Tiers Unit) : Act Unit Unit := do
  having (← makeTiers (some Instantiator.standard)) body

def held? (tier : CacheTier) : Act Tiers (Option Held) := do
  pure ((← Act.get).slot tier)

def confOf (tier : CacheTier) : Act Tiers CacheConf := do
  match ← held? tier with
  | some held => pure held.conf
  | none => Act.fail (.plain "no configuration")

def hasTag (tier : CacheTier) (tag : CacheTag) : Act Tiers Unit := do
  expect ((← confOf tier).tag == tag)

def configureEmpty (tier : CacheTier) (tag : CacheTag) : Act Tiers CacheConf :=
  Tiers.configure tier tag (pure ())

-- Works on a configuration that is held, without asking the tiers.
def work (tier : CacheTier) (mutator : Mutator) : Act Tiers Unit := do
  match ← held? tier with
  | none => Act.fail (.plain "no configuration")
  | some held =>
    let _ ← Act.on (·.slot tier) (·.setSlot tier ·) (Slot.mutate held mutator)

def enter (tier : CacheTier) (entries : List (Text × Text)) : Act Tiers Unit :=
  work tier (CacheConf.configure entries)

def rejected (tier : CacheTier) (entries : List (Text × Text)) : Act Tiers Text :=
  expectPlain (enter tier entries)

def url (conf : CacheConf) : Option Text :=
  match conf.settings with
  | .http http => some http.url
  | _ => none

def dirOf (conf : CacheConf) : Option DirSettings :=
  match conf.settings with
  | .dir dir => some dir
  | .sharedDir dir _ => some dir
  | _ => none

def setUrl (url : Text) : Mutator :=
  Act.modify fun conf =>
    match conf.settings with
    | .http http => { conf with settings := .http { http with url } }
    | _ => conf

def setMaxSize (maxSize : Nat) : Mutator :=
  Act.modify fun conf =>
    match conf.settings with
    | .dir dir => { conf with settings := .dir { dir with maxSize } }
    | .sharedDir dir group => { conf with settings := .sharedDir { dir with maxSize } group }
    | _ => conf

def replacing : Text := "replacing"

def tierChecks : List Check :=
  [ ⟨"defaults", withTiers do
      let conf ← confOf .local
      expect (conf.tag == .dir && conf.push && conf.enabled)
      expect (← held? .remote).isNone
      expect ((← Tiers.resolve .local) == "dir_cache")⟩,
    ⟨"remote_is_created_on_demand", withTiers do
      let conf ← configureEmpty .remote .http
      expect ((← confOf .remote) == conf)
      expect (conf.tag == .http && !conf.push)
      expect ((← Tiers.resolve .remote) == "http_cache")⟩,
    ⟨"compatible_configuration_is_kept", withTiers do
      let first ← held? .local
      let _ ← configureEmpty .local .dir
      let _ ← configureEmpty .local .any
      expect ((← held? .local) == first)
      let _ ← configureEmpty .local .sharedDir
      hasTag .local .sharedDir
      expect (← confOf .local).push
      let second ← held? .local
      let _ ← configureEmpty .local .dir
      expect ((← held? .local) == second)
      expect ((← Tiers.resolve .local) == "dir_cache")⟩,
    ⟨"replacement_discards_previous_settings", withTiers do
      let _ ← Tiers.configure .remote .http (Act.modify fun conf => { conf with enabled := false })
      expect !(← confOf .remote).enabled
      let _ ← configureEmpty .remote .daemon
      hasTag .remote .daemon
      expect (← confOf .remote).enabled
      expect ((← Tiers.resolve .remote) == "daemon_cache")⟩,
    ⟨"replacement_notices", withTiers do
      let toHttp ← shown .info (configureEmpty .local .http)
      let firstRemote ← shown .info (configureEmpty .remote .http)
      let toShared ← shown .info (configureEmpty .local .sharedDir)
      let kept ← shown .info (configureEmpty .local .dir)
      expect (occurs "replacing local build cache type dir with http" toHttp)
      expect !(occurs replacing firstRemote)
      expect (occurs "replacing local build cache type http with shared_dir" toShared)
      expect !(occurs replacing kept)
      expect (← shown default (configureEmpty .remote .daemon)).isEmpty⟩,
    ⟨"mutators", withTiers do
      Tiers.mutate .local (Act.modify fun conf => { conf with push := false })
      expect !(← confOf .local).push
      let message ← expectFailure .remoteNotConfigured
        (Tiers.mutate .remote (Act.fail (.plain "mutator must not be called")))
      expect (message == "a type for the remote build cache must be configured first")
      let _ ← expectFailure .remoteNotConfigured (Tiers.resolve .remote)
      let _ ← configureEmpty .remote .http
      Tiers.mutate .remote (Act.modify fun conf => { conf with push := true })
      expect (← confOf .remote).push⟩,
    ⟨"typed_mutators", withTiers do
      let conf ← Tiers.configureAs .remote .http (setUrl "https://cache.example.com/")
      expect (conf == (← confOf .remote))
      expect (url conf == some "https://cache.example.com/")
      let conf ← Tiers.configureAs .local .dir (setMaxSize (Nat.pow 2 20))
      expect ((dirOf conf).map DirSettings.maxSize == some (Nat.pow 2 20))
      let _ ← configureEmpty .local .sharedDir
      expect ((← Tiers.configureAs .local .dir (pure ())).tag == .sharedDir)⟩,
    ⟨"bad_types", do
      withTiers do
        let _ ← expectFailure .invalidArgument (configureEmpty .local .none)
        let _ ← expectFailure .constructionFailure (configureEmpty .remote .remote)
        expect (← held? .remote).isNone
        hasTag .local .dir
      let _ ← expectFailure .invalidArgument (makeTiers none)⟩,
    ⟨"faulty_instantiators", do
      let faulty : List Instantiator :=
        [Instantiator.nothing, Instantiator.alwaysHttp, Instantiator.failing]
      faulty.forM fun inst => do
        let _ ← expectFailure .constructionFailure (makeTiers (some inst))
      having (← makeTiers (some Instantiator.specializing)) (hasTag .local .sharedDir)⟩,
    ⟨"config_entries", withTiers do
      Tiers.mutate .local
        (CacheConf.configure [("dir", "/tmp/cache"), ("size", "1G"), ("push", "no")])
      let conf ← confOf .local
      expect (dirOf conf == some ⟨"/tmp/cache/", Nat.pow 2 30⟩ && !conf.push)
      expect (occurs "wrong key (url)" (← rejected .local [("url", "http://x")]))
      expect (occurs "wrong value for entry push" (← rejected .local [("push", "maybe")]))
      let _ ← rejected .local [("dir", "relative/dir")]
      let _ ← rejected .local [("tag", "http")]⟩,
    ⟨"http_checks", withTiers do
      let _ ← configureEmpty .remote .http
      enter .remote [("url", "https://cache.example.com")]
      expect (url (← confOf .remote) == some "https://cache.example.com")
      let message ← rejected .remote [("url", "http://cache.example.com")]
      expect (occurs "allow_insecure_protocol" message)
      enter .remote [("url", "http://cache.example.com"), ("allow_insecure_protocol", "true")]
      let _ ← rejected .remote [("url", "ftp://cache.example.com")]
      enter .remote [("url", "https://cache.example.com")]
      let _ ← rejected .remote [("user", "me")]
      enter .remote [("user", "me"), ("password", "secret")]
      expect !(occurs "secret" (← confOf .remote).text)⟩,
    ⟨"daemon_checks", withTiers do
      let _ ← configureEmpty .remote .daemon
      enter .remote [("service", "localhost:8080")]
      let _ ← rejected .remote [("service", "localhost")]
      let _ ← rejected .remote [("service", "localhost:0")]
      let _ ← rejected .remote [("service", "localhost:x")]⟩ ]

def tiers : Suite where
  setUp := having [] (Registry.ofList Registry.builtin)
  checks := tierChecks

end Foreman.Checks
