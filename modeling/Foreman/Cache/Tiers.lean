import Foreman.Cache.Conf
import Foreman.Cache.Registry

namespace Foreman

-- Makes a fresh configuration of a type, or of a more special one. It may fail or find none.
abbrev Instantiator := CacheTag → Except Failure (Option CacheConf)

-- What is done to the configuration in a slot.
abbrev Mutator := Act CacheConf Unit

-- A configuration in a slot, with a number that is new for each configuration that enters the
-- slot.
structure Held where
  conf : CacheConf
  serial : Nat
deriving DecidableEq

structure Tiers where
  instantiator : Instantiator
  registry : Registry
  localHeld : Held
  remoteHeld : Option Held

namespace Instantiator

def standard : Instantiator := fun tag => (CacheConf.make tag).map some

end Instantiator

namespace CacheTier

-- What is built locally is cheap to store in a local cache.
def pushesByDefault : CacheTier → Bool
  | .local => true
  | .remote => false

end CacheTier

-- The slot of a tier while it is being configured, possibly for the first time.
abbrev Slot := Option Held

namespace Slot

def cannotInstantiate (tag : CacheTag) (why : Text) : Failure :=
  .ofKind .constructionFailure
    ("cannot instantiate build cache configuration of type " ++ tag.name ++ " : " ++ why)

def nothingInstantiated (tag : CacheTag) : Failure :=
  .ofKind .constructionFailure
    ("no build cache configuration of type " ++ tag.name ++ " could be instantiated")

def wronglyInstantiated (made asked : CacheTag) : Failure :=
  .ofKind .constructionFailure
    ("instantiated build cache configuration of type " ++ made.name ++ " when " ++ asked.name ++
      " was asked")

-- A fresh configuration of the type. Failures without a kind get one here, others go through.
def instantiate {σ : Type} (inst : Instantiator) (tag : CacheTag) : Act σ CacheConf :=
  match inst tag with
  | .error (.plain why) => do
    Act.note ["cannot_instantiate", why]
    Act.fail (cannotInstantiate tag why)
  | .error e => Act.fail e
  | .ok none => Act.fail (nothingInstantiated tag)
  | .ok (some conf) =>
    if conf.isA tag then pure conf else Act.fail (wronglyInstantiated conf.tag tag)

-- Takes a fresh configuration in, and says so if it takes the place of another one.
def replace (inst : Instantiator) (tier : CacheTier) (tag : CacheTag) (slot : Slot) :
    Act Slot Held := do
  let conf ← instantiate inst tag
  let fresh (serial : Nat) : Held := ⟨{ conf with push := tier.pushesByDefault }, serial⟩
  match slot with
  | none =>
    Act.modify fun _ => some (fresh 0)
    pure (fresh 0)
  | some held =>
    Act.note ["replace", held.conf.tag.name]
    Act.report .info
      ("replacing " ++ tier.name ++ " build cache type " ++ held.conf.tag.name ++ " with " ++
        conf.tag.name)
    Act.modify fun _ => some (fresh (held.serial + 1))
    pure (fresh (held.serial + 1))

-- The configuration that serves a request for `tag`: the one in the slot if it is of that type,
-- else a fresh one.
def select (inst : Instantiator) (tier : CacheTier) (tag : CacheTag) : Act Slot Held := do
  let slot ← Act.get
  match slot with
  | some held => if held.conf.isA tag then pure held else replace inst tier tag slot
  | none => replace inst tier tag slot

-- The mutator works on the configuration in the slot, and what it did stays if it fails.
def mutate (held : Held) (mutator : Mutator) : Act Slot Held :=
  fun _ =>
    let after := mutator held.conf
    let held := { held with conf := after.state }
    ⟨after.result.map fun _ => held, some held, after.events⟩

def request (inst : Instantiator) (tier : CacheTier) (tag : CacheTag) : Act Slot Held := do
  if tag = .none then Act.fail Registry.unsetTag
  select inst tier tag

def configure (inst : Instantiator) (tier : CacheTier) (tag : CacheTag) (mutator : Mutator) :
    Act Slot Held :=
  .within .cache "configure" [tier.name, tag.name] do
    let held ← request inst tier tag
    mutate held mutator

end Slot

namespace Tiers

def slot (tiers : Tiers) : CacheTier → Slot
  | .local => some tiers.localHeld
  | .remote => tiers.remoteHeld

-- The local slot cannot be emptied.
def setSlot (tiers : Tiers) (tier : CacheTier) (slot : Slot) : Tiers :=
  match tier with
  | .local => { tiers with localHeld := slot.getD tiers.localHeld }
  | .remote => { tiers with remoteHeld := slot }

def noRemote : Failure :=
  .ofKind .remoteNotConfigured "a type for the remote build cache must be configured first"

def noInstantiator : Failure := .invalidArgument "build cache instantiator cannot be unset"

-- Fresh tiers. The local one holds a directory, the remote one nothing.
def start {σ : Type} (registry : Registry) (inst : Option Instantiator) : Act σ Tiers :=
  match inst with
  | none => Act.fail noInstantiator
  | some inst => do
    let (held, _) ← Act.nested none (Slot.configure inst .local .dir (pure ()))
    pure ⟨inst, registry, held, none⟩

-- Works on the configuration of a tier, which is of type `tag` when the mutator sees it.
def configure (tier : CacheTier) (tag : CacheTag) (mutator : Mutator) : Act Tiers CacheConf := do
  let tiers ← Act.get
  let held ← Act.on (·.slot tier) (·.setSlot tier ·)
    (Slot.configure tiers.instantiator tier tag mutator)
  pure held.conf

def mutateLocal (mutator : Mutator) : Act Tiers Unit := do
  let tiers ← Act.get
  Act.within .cache "mutate_local" [tiers.localHeld.conf.tag.name] do
    let _ ← Act.on (·.slot .local) (·.setSlot .local ·) (Slot.mutate tiers.localHeld mutator)

def mutateRemote (mutator : Mutator) : Act Tiers Unit := do
  let tiers ← Act.get
  Act.within .cache "mutate_remote" [] do
    match tiers.remoteHeld with
    | none => Act.fail noRemote
    | some held =>
      let _ ← Act.on (·.slot .remote) (·.setSlot .remote ·) (Slot.mutate held mutator)

def mutate : CacheTier → Mutator → Act Tiers Unit
  | .local => mutateLocal
  | .remote => mutateRemote

def resolve (tier : CacheTier) : Act Tiers Text := do
  let tiers ← Act.get
  match tiers.slot tier with
  | none => Act.fail noRemote
  | some held => tiers.registry.resolve held.conf.tag

def register (tag : CacheTag) (factory : Text) : Act Tiers Unit :=
  Act.on (·.registry) (fun tiers registry => { tiers with registry })
    (Registry.register tag factory)

end Tiers

end Foreman
