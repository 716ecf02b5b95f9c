import Foreman.Cache.Registry
import Foreman.Runs.Checks.Basic

namespace Foreman.Checks

open Check

def withRegistry (registrations : List Registration) (body : Act Registry Unit) : Act Unit Unit :=
  having [] do
    Registry.ofList registrations
    body

def resolve (tag : CacheTag) : Act Registry Text := do
  (← Act.get).resolve tag

def resolvesTo (tag : CacheTag) (factory : Text) : Act Registry Unit := do
  expect ((← resolve tag) == factory)

def notResolved (tag : CacheTag) : Act Registry Text :=
  expectFailure .backendNotFound (resolve tag)

def countIs (n : Nat) : Act Registry Unit := do
  expect ((← Act.get).length == n)

def below (tag : CacheTag) : List CacheTag :=
  Enumeration.values.filter fun t => t.isA tag

def registryChecks : List Check :=
  [ ⟨"builtins", withRegistry Registry.builtin do
      countIs 3
      resolvesTo .dir "dir_cache"
      resolvesTo .http "http_cache"
      resolvesTo .daemon "daemon_cache"⟩,
    ⟨"subtypes_resolve_to_ancestor_factory", withRegistry Registry.builtin do
      resolvesTo .sharedDir "dir_cache"
      (← Act.get).forM fun r => (below r.tag).forM fun t => resolvesTo t r.factory⟩,
    ⟨"unrelated_type_is_not_found", withRegistry Registry.builtin do
      expect (occurs "'remote'" (← notResolved .remote))
      let _ ← notResolved .any
      let _ ← notResolved .none⟩,
    ⟨"unset_registration_is_rejected", withRegistry Registry.builtin do
      let noTag ← expectFailure .invalidArgument (Registry.register .none "foo")
      let noFactory ← expectFailure .invalidArgument (Registry.register .http "")
      expect (noTag == "configuration type cannot be unset")
      expect (noFactory == "factory type cannot be unset")
      countIs 3⟩,
    ⟨"round_trip", withRegistry [] do
      let _ ← notResolved .http
      Registry.register .http "f"
      resolvesTo .http "f"
      Registry.register .dir "g"
      resolvesTo .http "f"
      resolvesTo .dir "g"
      let _ ← notResolved .daemon⟩,
    ⟨"general_registration_serves_all_subtypes", withRegistry [⟨.any, "generic"⟩] do
      (below .any).forM fun t => resolvesTo t "generic"⟩,
    ⟨"first_registration_wins", do
      withRegistry Registry.builtin do
        Registry.register .dir "other_dir_cache"
        Registry.register .sharedDir "shared_dir_cache"
        countIs 5
        resolvesTo .dir "dir_cache"
        resolvesTo .sharedDir "dir_cache"
      withRegistry [⟨.sharedDir, "shared_dir_cache"⟩, ⟨.dir, "dir_cache"⟩] do
        resolvesTo .sharedDir "shared_dir_cache"
        resolvesTo .dir "dir_cache"⟩,
    ⟨"resolution_notice_names_registered_type", withRegistry Registry.builtin do
      expect (occurs "found dir_cache registered for dir\n" (← shown .info (resolve .sharedDir)))
      expect (← shown default (resolve .dir)).isEmpty⟩ ]

def registry : Suite := { checks := registryChecks }

end Foreman.Checks
