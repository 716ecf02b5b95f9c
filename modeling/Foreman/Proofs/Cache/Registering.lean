import Foreman.Cache.Registry
import Foreman.Proofs.Session.Act

namespace Foreman.Registry

-- The registry after further registrations, each of which may be refused.
def after (registry : Registry) (registrations : List Registration) : Registry :=
  registrations.foldl (fun registry r => (register r.tag r.factory registry).state) registry

theorem register_extends (registry : Registry) (tag : CacheTag) (factory : Text) :
    registry <+: (register tag factory registry).state := by
  simp only [register, Act.within, Act.ite_apply]
  split
  · exact List.prefix_rfl
  · split
    · exact List.prefix_rfl
    · exact List.prefix_append _ _

theorem after_extends (registry : Registry) (registrations : List Registration) :
    registry <+: registry.after registrations := by
  induction registrations generalizing registry with
  | nil => exact List.prefix_rfl
  | cons r registrations ih => exact (register_extends registry r.tag r.factory).trans (ih _)

theorem find?_of_extension {registry more : Registry} {tag : CacheTag} {r : Registration}
    (h : registry <+: more) (hfind : registry.find? tag = some r) : more.find? tag = some r := by
  obtain ⟨rest, rfl⟩ := h
  unfold find? at hfind ⊢
  rw [List.find?_append, hfind]
  rfl

theorem resolve_of_find? {σ : Type} {registry : Registry} {tag : CacheTag} {r : Registration}
    (h : registry.find? tag = some r) (s : σ) :
    (registry.resolve tag s).result = .ok r.factory := by
  simp only [resolve, Act.within, h]
  rfl

-- The factory that is built in for the types that have configurations.
def builtinFactory? : CacheTag → Option Text
  | .dir | .sharedDir => some "dir_cache"
  | .http => some "http_cache"
  | .daemon => some "daemon_cache"
  | .none | .any | .remote => none

theorem find?_builtin {tag : CacheTag} {name : Text} (h : builtinFactory? tag = some name) :
    ∃ r, find? builtin tag = some r ∧ r.factory = name := by
  cases tag <;> cases h
  · exact ⟨⟨.dir, "dir_cache"⟩, rfl, rfl⟩
  · exact ⟨⟨.dir, "dir_cache"⟩, rfl, rfl⟩
  · exact ⟨⟨.http, "http_cache"⟩, rfl, rfl⟩
  · exact ⟨⟨.daemon, "daemon_cache"⟩, rfl, rfl⟩

theorem resolve_builtin {σ : Type} {registry : Registry} {tag : CacheTag} {name : Text}
    (hextends : builtin <+: registry) (h : builtinFactory? tag = some name) (s : σ) :
    (registry.resolve tag s).result = .ok name := by
  obtain ⟨r, hfind, rfl⟩ := find?_builtin h
  exact resolve_of_find? (find?_of_extension hextends hfind) s

end Foreman.Registry
