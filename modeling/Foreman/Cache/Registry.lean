import Foreman.Cache.Tag
import Foreman.Session.Act

namespace Foreman

structure Registration where
  tag : CacheTag
  factory : Text
deriving DecidableEq

def Registration.text (r : Registration) : Text :=
  "BackendRegistration(" ++ r.tag.name ++ "->" ++ r.factory ++ ")"

-- The registrations in their order.
abbrev Registry := List Registration

namespace Registry

def builtin : List Registration :=
  [⟨.dir, "dir_cache"⟩, ⟨.http, "http_cache"⟩, ⟨.daemon, "daemon_cache"⟩]

def unsetTag : Failure := .invalidArgument "configuration type cannot be unset"

def unsetFactory : Failure := .invalidArgument "factory type cannot be unset"

def notFound (tag : CacheTag) : Failure :=
  .ofKind .backendNotFound
    ("no build cache factory for configuration type '" ++ tag.name ++ "' could be found")

-- Goes to the end of the list. Duplicates are welcome and never found.
def register (tag : CacheTag) (factory : Text) : Act Registry Unit :=
  .within .cache "register_factory" [tag.name, factory] do
    if tag = .none then Act.fail unsetTag
    else if factory.isEmpty then Act.fail unsetFactory
    else Act.modify (· ++ [⟨tag, factory⟩])

def ofList (registrations : List Registration) : Act Registry Unit :=
  registrations.forM fun r => register r.tag r.factory

def find? (registry : Registry) (tag : CacheTag) : Option Registration :=
  List.find? (fun r => tag.isA r.tag) registry

def resolve {σ : Type} (registry : Registry) (tag : CacheTag) : Act σ Text :=
  .within .cache "resolve_factory" [tag.name] do
    match registry.find? tag with
    | some r =>
      Act.note ["found", r.text]
      Act.report .info ("found " ++ r.factory ++ " registered for " ++ r.tag.name)
      pure r.factory
    | none =>
      Act.note ["not_found"]
      Act.fail (notFound tag)

end Registry

end Foreman
