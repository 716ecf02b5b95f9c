import Foreman.Session.Basic

namespace Foreman

structure CachePolicy where
  pullDisabled : Bool := false
  pushDisabled : Bool := false
deriving DecidableEq

namespace CachePolicy

def pullKey : Text := "cache.tasks.pull"

def pushKey : Text := "cache.tasks.push"

def disables (value : Option Text) : Bool :=
  match value with
  | none => false
  | some value => Text.lower (Text.strip value) = "false"

def deprecated (key : Text) : Text :=
  key ++ " is deprecated, use the caches entry of the configuration instead"

-- The explicit value masks the ambient one, whatever it is.
def decide {σ : Type} (key : Text) (explicit ambient : Option Text) : Act σ Bool := do
  let value := explicit.or ambient
  if value.isSome then Act.report .warn (deprecated key)
  pure (disables value)

def make {σ : Type} (params : StartParams) (ambient : Table Text) : Act σ CachePolicy :=
  .within .cache "CachePolicy" [params.text] do
    let pull ← decide pullKey (params.property? pullKey) (ambient.find? pullKey)
    let push ← decide pushKey (params.property? pushKey) (ambient.find? pushKey)
    Act.note [Event.flag "_pull_disabled" pull, Event.flag "_push_disabled" push]
    pure ⟨pull, push⟩

end CachePolicy

end Foreman
