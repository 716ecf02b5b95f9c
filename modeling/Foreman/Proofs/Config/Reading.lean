import Foreman.Config.Globals
import Foreman.Proofs.Session.Act

namespace Foreman

theorem Reading.field_eq_ok_iff {α : Type} {path : List Text} {access : Script.Access α} {a : α} :
    Reading.field path access = .ok a ↔ access = .ok a := by
  cases access with
  | error why => exact iff_of_false nofun nofun
  | ok b =>
    change (Except.ok b : Except FieldError α) = .ok a ↔ _
    rw [Except.ok.injEq, Except.ok.injEq]

theorem Reading.field_eq_error_iff {α : Type} {path : List Text} {access : Script.Access α}
    {e : FieldError} :
    Reading.field path access = .error e ↔ ∃ why, access = .error why ∧ e = ⟨path, why⟩ := by
  cases access with
  | ok a => exact iff_of_false nofun nofun
  | error why =>
    constructor
    · intro h
      cases h
      exact ⟨why, rfl, rfl⟩
    · rintro ⟨_, h, rfl⟩
      cases h
      rfl

namespace Config

open Script (Entries Value)

def propertiesOf (globals : Entries) : Table Text :=
  property globals "cache_push" CachePolicy.pushKey
    (property globals "cache_pull" CachePolicy.pullKey ∅)

theorem part_congr {α : Type} {globals globals' : Entries} {name : Text}
    (h : globals'.find? name = globals.find? name) (default : α) (ofGlobal : Value → Reading α) :
    part globals' name default ofGlobal = part globals name default ofGlobal := by
  unfold part
  rw [h]

theorem ofGlobals_eq_ok_iff {globals : Entries} {config : Config} :
    ofGlobals globals = .ok config ↔
      ∃ caches level worker trace,
        part globals "caches" {} CacheRequests.ofGlobal = .ok caches ∧
        (part globals "log_level" default fun value =>
          Reading.field ["log_level"] (Script.Access.name value)) = .ok level ∧
        part globals "worker" {} Isolation.ofGlobal = .ok worker ∧
        part globals "trace" {} TraceConf.ofGlobal = .ok trace ∧
        config = ⟨caches.localCache, caches.remoteCache, propertiesOf globals, worker, level,
          trace⟩ := by
  unfold ofGlobals
  constructor
  · intro h
    obtain ⟨caches, hcaches, h⟩ := bind_eq_ok_iff.mp h
    obtain ⟨level, hlevel, h⟩ := bind_eq_ok_iff.mp h
    obtain ⟨worker, hworker, h⟩ := bind_eq_ok_iff.mp h
    obtain ⟨trace, htrace, h⟩ := bind_eq_ok_iff.mp h
    exact ⟨caches, level, worker, trace, hcaches, hlevel, hworker, htrace, (Except.ok.inj h).symm⟩
  · rintro ⟨caches, level, worker, trace, hcaches, hlevel, hworker, htrace, rfl⟩
    rw [hcaches, hlevel, hworker, htrace]
    rfl

end Config

end Foreman
