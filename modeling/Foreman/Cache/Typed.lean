import Foreman.Cache.Tiers

namespace Foreman

-- The types that have settings of their own.
inductive ConfClass where
  | dir
  | sharedDir
  | http
  | daemon
deriving DecidableEq, Repr

namespace ConfClass

def tag : ConfClass → CacheTag
  | dir => .dir
  | sharedDir => .sharedDir
  | http => .http
  | daemon => .daemon

def ofTag? : CacheTag → Option ConfClass
  | .dir => some dir
  | .sharedDir => some sharedDir
  | .http => some http
  | .daemon => some daemon
  | _ => none

def has (cls : ConfClass) (conf : CacheConf) : Bool :=
  match cls, conf.settings with
  | dir, .dir _ => true
  | dir, .sharedDir _ _ => true
  | sharedDir, .sharedDir _ _ => true
  | http, .http _ => true
  | daemon, .daemon _ => true
  | _, _ => false

end ConfClass

namespace Tiers

def notOfClass (tag : CacheTag) : Failure :=
  .ofKind .constructionFailure
    ("build cache configuration of type " ++ tag.name ++
      " is not implemented by the expected class")

-- The tier is configured for the tag of the class first, and then asked for the settings of the
-- class. The mutator runs outside the scope of the configuration.
def configureAs (tier : CacheTier) (cls : ConfClass) (mutator : Mutator) : Act Tiers CacheConf := do
  let conf ← configure tier cls.tag (pure ())
  if cls.has conf then
    let tiers ← Act.get
    match tiers.slot tier with
    | none => pure conf
    | some held =>
      let held ← Act.on (·.slot tier) (·.setSlot tier ·) (Slot.mutate held mutator)
      pure held.conf
  else Act.fail (notOfClass conf.tag)

end Tiers

end Foreman
