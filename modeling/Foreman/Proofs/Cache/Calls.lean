import Foreman.Cache.Typed
import Foreman.Proofs.Cache.Slot

namespace Foreman

def CacheSettings.blank : CacheSettings → CacheSettings
  | .dir _ => .dir {}
  | .sharedDir _ _ => .sharedDir {} []
  | .http _ => .http {}
  | .daemon _ => .daemon []
  | .plain tag => .plain tag

namespace CacheConf

def kind (conf : CacheConf) : CacheSettings :=
  conf.settings.blank

theorem tag_kind (conf : CacheConf) : CacheConf.tag { settings := conf.kind } = conf.tag := by
  cases conf with
  | mk push enabled settings => cases settings <;> rfl

theorem tag_eq_of_kind_eq {a b : CacheConf} (h : a.kind = b.kind) : a.tag = b.tag := by
  rw [← tag_kind a, h, tag_kind]

theorem isA_eq_of_kind_eq {a b : CacheConf} (h : a.kind = b.kind) (tag : CacheTag) :
    a.isA tag = b.isA tag := by
  rw [isA, isA, tag_eq_of_kind_eq h]

end CacheConf

-- A mutator works on the settings that it finds. It may change all of them, but never the class
-- that they belong to.
structure Change where
  mutator : Mutator
  kind_eq : ∀ conf, (mutator conf).state.kind = conf.kind

def Change.nothing : Change := ⟨pure (), fun _ => rfl⟩

-- What a call for the settings of a class does to the configuration that serves it: it looks whether
-- the settings are there before its mutator runs.
def ConfClass.checked (cls : ConfClass) (mutator : Mutator) : Mutator := do
  let conf ← Act.get
  if cls.has conf then mutator else Act.fail (Tiers.notOfClass conf.tag)

theorem ConfClass.checked_apply (cls : ConfClass) (mutator : Mutator) (conf : CacheConf) :
    cls.checked mutator conf =
      if cls.has conf then mutator conf else ⟨.error (Tiers.notOfClass conf.tag), conf, []⟩ := by
  rw [checked, Act.get_bind, Act.ite_apply, Act.fail_apply]

theorem ConfClass.kind_checked (cls : ConfClass) (change : Change) (conf : CacheConf) :
    (cls.checked change.mutator conf).state.kind = conf.kind := by
  rw [checked_apply]
  split
  · exact change.kind_eq conf
  · rfl

namespace CacheTier

def other : CacheTier → CacheTier
  | .local => .remote
  | .remote => .local

theorem eq_or_eq_other (tier base : CacheTier) : tier = base ∨ tier = base.other := by
  cases tier <;> cases base <;> simp [other]

theorem other_other (tier : CacheTier) : tier.other.other = tier := by
  cases tier <;> rfl

end CacheTier

inductive Reply where
  | conf (conf : CacheConf)
  | done
  | factory (name : Text)
deriving DecidableEq

inductive TierCall where
  | configure (tier : CacheTier) (tag : CacheTag) (change : Change)
  | configureAs (tier : CacheTier) (cls : ConfClass) (change : Change)
  | mutate (tier : CacheTier) (change : Change)
  | resolve (tier : CacheTier)
  | register (tag : CacheTag) (factory : Text)

namespace TierCall

def perform : TierCall → Act Tiers Reply
  | configure tier tag change => do pure (.conf (← Tiers.configure tier tag change.mutator))
  | configureAs tier cls change => do pure (.conf (← Tiers.configureAs tier cls change.mutator))
  | mutate tier change => do
    Tiers.mutate tier change.mutator
    pure .done
  | resolve tier => do pure (.factory (← Tiers.resolve tier))
  | register tag factory => do
    Tiers.register tag factory
    pure .done

def isOn (tier : CacheTier) : TierCall → Bool
  | configure t _ _ => t = tier
  | configureAs t _ _ => t = tier
  | mutate t _ => t = tier
  | resolve t => t = tier
  | register _ _ => false

theorem isOn_or_register (call : TierCall) (tier : CacheTier) :
    call.isOn tier ∨ call.isOn tier.other ∨ ∃ tag factory, call = .register tag factory := by
  cases call with
  | configure t | configureAs t | mutate t | resolve t =>
    rcases t.eq_or_eq_other tier with h | h
    · exact .inl (decide_eq_true h)
    · exact .inr (.inl (decide_eq_true h))
  | register tag factory => exact .inr (.inr ⟨tag, factory, rfl⟩)

-- The calls that ask for a type on a tier.
inductive Asks (tier : CacheTier) : CacheTag → TierCall → Prop where
  | configure (tag : CacheTag) (change : Change) : Asks tier tag (.configure tier tag change)
  | configureAs (cls : ConfClass) (change : Change) :
      Asks tier cls.tag (.configureAs tier cls change)

end TierCall

namespace Tiers

def after (tiers : Tiers) (calls : List TierCall) : Tiers :=
  calls.foldl (fun tiers call => (call.perform tiers).state) tiers

theorem after_cons (tiers : Tiers) (call : TierCall) (calls : List TierCall) :
    tiers.after (call :: calls) = (call.perform tiers).state.after calls := rfl

theorem after_append (tiers : Tiers) (calls more : List TierCall) :
    tiers.after (calls ++ more) = (tiers.after calls).after more :=
  List.foldl_append

-- A request gets past instantiation: what is left of the call is its mutator.
def Grants (tiers : Tiers) (tier : CacheTier) (tag : CacheTag) : Prop :=
  ∃ held, (Slot.request tiers.instantiator tier tag (tiers.slot tier)).result = .ok held

theorem setSlot_slot (tiers : Tiers) (tier : CacheTier) :
    tiers.setSlot tier (tiers.slot tier) = tiers := by
  cases tier <;> rfl

theorem slot_setSlot (tiers : Tiers) (tier : CacheTier) (held : Held) :
    (tiers.setSlot tier (some held)).slot tier = some held := by
  cases tier <;> rfl

theorem setSlot_setSlot (tiers : Tiers) (tier : CacheTier) (a b : Held) :
    (tiers.setSlot tier (some a)).setSlot tier (some b) = tiers.setSlot tier (some b) := by
  cases tier <;> rfl

theorem slot_setSlot_other (tiers : Tiers) (tier : CacheTier) (slot : Slot) :
    (tiers.setSlot tier slot).slot tier.other = tiers.slot tier.other := by
  cases tier <;> rfl

theorem instantiator_setSlot (tiers : Tiers) (tier : CacheTier) (slot : Slot) :
    (tiers.setSlot tier slot).instantiator = tiers.instantiator := by
  cases tier <;> rfl

theorem registry_setSlot (tiers : Tiers) (tier : CacheTier) (slot : Slot) :
    (tiers.setSlot tier slot).registry = tiers.registry := by
  cases tier <;> rfl

variable {tiers : Tiers} {tier : CacheTier} {tag : CacheTag}

theorem grants_iff :
    tiers.Grants tier tag ↔
      ∃ held, Slot.Selects tiers.instantiator tier tag (tiers.slot tier) held := by
  constructor
  · rintro ⟨held, h⟩
    cases Slot.refuses_or_selects tiers.instantiator tier tag (tiers.slot tier) with
    | inl hrefuses =>
      obtain ⟨e, hrefuses⟩ := hrefuses
      obtain ⟨events, hrequest, -⟩ := Slot.request_of_refuses tier hrefuses
      rw [hrequest] at h
      cases h
    | inr hselects => exact hselects
  · rintro ⟨held, h⟩
    obtain ⟨events, hrequest⟩ := Slot.request_of_selects h
    exact ⟨held, by rw [hrequest]⟩

theorem configure_apply (tiers : Tiers) (tier : CacheTier) (tag : CacheTag) (mutator : Mutator) :
    configure tier tag mutator tiers =
      let after := Slot.configure tiers.instantiator tier tag mutator (tiers.slot tier)
      ⟨after.result.map Held.conf, tiers.setSlot tier after.state, after.events⟩ :=
  Act.bind_pure (Act.on (fun s : Tiers => s.slot tier) (fun s slot => s.setSlot tier slot)
    (Slot.configure tiers.instantiator tier tag mutator)) Held.conf tiers

theorem configure_of_refuses {e : Failure} (mutator : Mutator)
    (h : Slot.Refuses tiers.instantiator tag (tiers.slot tier) e) :
    ∃ events, configure tier tag mutator tiers = ⟨.error e, tiers, events⟩ ∧
      events.filterMap Event.report? = [] := by
  obtain ⟨events, hconfigure, hreports⟩ := Slot.configure_of_refuses tier mutator h
  refine ⟨events, ?_, hreports⟩
  rw [configure_apply, hconfigure]
  simp only [setSlot_slot]
  rfl

theorem configure_of_request {held : Held} {s : Slot} {events : List Event} (mutator : Mutator)
    (h : Slot.request tiers.instantiator tier tag (tiers.slot tier) = ⟨.ok held, s, events⟩) :
    ∃ more, configure tier tag mutator tiers =
        ⟨(mutator held.conf).result.map fun _ => (mutator held.conf).state,
          tiers.setSlot tier (some { held with conf := (mutator held.conf).state }), more⟩ ∧
      more.filterMap Event.report? =
        events.filterMap Event.report? ++ (mutator held.conf).reports := by
  obtain ⟨more, hconfigure, hreports⟩ := Slot.configure_of_request mutator h
  refine ⟨more, ?_, hreports⟩
  rw [configure_apply, hconfigure]
  cases (mutator held.conf).result <;> rfl

theorem configureAs_of_refuses {cls : ConfClass} {e : Failure} (mutator : Mutator)
    (h : Slot.Refuses tiers.instantiator cls.tag (tiers.slot tier) e) :
    ∃ events, configureAs tier cls mutator tiers = ⟨.error e, tiers, events⟩ ∧
      events.filterMap Event.report? = [] := by
  obtain ⟨events, hconfigure, hreports⟩ := configure_of_refuses (pure ()) h
  exact ⟨events, Act.bind_of_error hconfigure _, hreports⟩

theorem configureAs_of_request {cls : ConfClass} {held : Held} {s : Slot} {events : List Event}
    (mutator : Mutator)
    (h : Slot.request tiers.instantiator tier cls.tag (tiers.slot tier) =
      ⟨.ok held, s, events⟩) :
    ∃ more, configureAs tier cls mutator tiers =
        ⟨(cls.checked mutator held.conf).result.map fun _ => (cls.checked mutator held.conf).state,
          tiers.setSlot tier
            (some { held with conf := (cls.checked mutator held.conf).state }), more⟩ ∧
      more.filterMap Event.report? =
        events.filterMap Event.report? ++ (cls.checked mutator held.conf).reports := by
  obtain ⟨more, hconfigure, hreports⟩ : ∃ more, configure tier cls.tag (pure ()) tiers =
      ⟨.ok held.conf, tiers.setSlot tier (some held), more⟩ ∧
      more.filterMap Event.report? = events.filterMap Event.report? ++ [] :=
    configure_of_request (pure ()) h
  rw [List.append_nil] at hreports
  rw [configureAs, Act.bind_of_ok hconfigure, Act.ite_apply, ConfClass.checked_apply]
  by_cases hhas : cls.has held.conf
  · rw [if_pos hhas, if_pos hhas, Act.get_bind]
    simp only [slot_setSlot, Act.bind_pure, Act.on, Slot.mutate, setSlot_setSlot]
    refine ⟨_, Outcome.eq_mk ?_ rfl rfl, ?_⟩
    · cases (mutator held.conf).result <;> rfl
    · rw [List.filterMap_append, hreports, ← Outcome.reports]
  · rw [if_neg hhas, if_neg hhas, Act.fail_apply]
    refine ⟨_, rfl, ?_⟩
    rw [List.filterMap_append, hreports]
    rfl

-- The two ways to ask a tier for a type, each with what it does to the configuration that serves it.
inductive Requests (tier : CacheTier) : CacheTag → Mutator → Act Tiers CacheConf → Prop where
  | type (tag : CacheTag) (mutator : Mutator) :
      Requests tier tag mutator (configure tier tag mutator)
  | settings (cls : ConfClass) (mutator : Mutator) :
      Requests tier cls.tag (cls.checked mutator) (configureAs tier cls mutator)

namespace Requests

variable {work : Mutator} {call : Act Tiers CacheConf}

theorem of_refuses {e : Failure} (h : Requests tier tag work call)
    (hrefuses : Slot.Refuses tiers.instantiator tag (tiers.slot tier) e) :
    ∃ events, call tiers = ⟨.error e, tiers, events⟩ ∧ events.filterMap Event.report? = [] := by
  cases h with
  | type => exact configure_of_refuses work hrefuses
  | settings cls mutator => exact configureAs_of_refuses mutator hrefuses

theorem of_request {held : Held} {s : Slot} {events : List Event}
    (h : Requests tier tag work call)
    (hrequest : Slot.request tiers.instantiator tier tag (tiers.slot tier) =
      ⟨.ok held, s, events⟩) :
    ∃ more, call tiers = ⟨(work held.conf).result.map fun _ => (work held.conf).state,
        tiers.setSlot tier (some { held with conf := (work held.conf).state }), more⟩ ∧
      more.filterMap Event.report? =
        events.filterMap Event.report? ++ (work held.conf).reports := by
  cases h with
  | type => exact configure_of_request work hrequest
  | settings cls mutator => exact configureAs_of_request mutator hrequest

theorem of_selects {held : Held} (h : Requests tier tag work call)
    (hselects : Slot.Selects tiers.instantiator tier tag (tiers.slot tier) held) :
    ∃ events, call tiers = ⟨(work held.conf).result.map fun _ => (work held.conf).state,
      tiers.setSlot tier (some { held with conf := (work held.conf).state }), events⟩ := by
  obtain ⟨events, hrequest⟩ := Slot.request_of_selects hselects
  obtain ⟨more, hcall, -⟩ := h.of_request hrequest
  exact ⟨more, hcall⟩

end Requests

theorem configure_of_selects {held : Held} (mutator : Mutator)
    (h : Slot.Selects tiers.instantiator tier tag (tiers.slot tier) held) :
    ∃ events, configure tier tag mutator tiers =
      ⟨(mutator held.conf).result.map fun _ => (mutator held.conf).state,
        tiers.setSlot tier (some { held with conf := (mutator held.conf).state }), events⟩ :=
  Requests.of_selects (.type tag mutator) h

theorem slot_mutate (tiers : Tiers) (tier : CacheTier) (mutator : Mutator) :
    (mutate tier mutator tiers).state.slot tier =
      (tiers.slot tier).map fun held => { held with conf := (mutator held.conf).state } := by
  cases tier with
  | «local» =>
    simp only [mutate, mutateLocal, Act.get_bind, Act.within, Act.bind_pure, Act.on, Slot.mutate]
    rfl
  | remote =>
    simp only [mutate, mutateRemote, Act.get_bind, Act.within]
    cases hheld : tiers.remoteHeld with
    | none => simp only [Act.fail_apply, slot, hheld, Option.map_none]
    | some held =>
      simp only [Act.bind_pure, Act.on, Slot.mutate]
      simp only [slot, setSlot, hheld, Option.map_some]

theorem result_mutate {held : Held} (mutator : Mutator) (h : tiers.slot tier = some held) :
    (mutate tier mutator tiers).result = (mutator held.conf).result.map fun _ => () := by
  cases tier with
  | «local» =>
    cases h
    simp only [mutate, mutateLocal, Act.get_bind, Act.within, Act.bind_pure, Act.on, Slot.mutate]
    cases (mutator tiers.localHeld.conf).result <;> rfl
  | remote =>
    have hheld : tiers.remoteHeld = some held := h
    simp only [mutate, mutateRemote, Act.get_bind, Act.within, hheld, Act.bind_pure, Act.on,
      Slot.mutate]
    cases (mutator held.conf).result <;> rfl

theorem state_resolve (tiers : Tiers) (tier : CacheTier) :
    (resolve tier tiers).state = tiers := by
  simp only [resolve, Act.get_bind]
  cases tiers.slot tier with
  | none => rfl
  | some held =>
    simp only [Registry.resolve, Act.within]
    cases tiers.registry.find? held.conf.tag <;> rfl

theorem slot_register (tiers : Tiers) (tier : CacheTier) (tag : CacheTag) (factory : Text) :
    (register tag factory tiers).state.slot tier = tiers.slot tier := by
  cases tier <;> rfl

theorem start_eq_ok {σ : Type} {registry : Registry} {inst : Option Instantiator} {s : σ}
    {fresh : Tiers} (h : (start registry inst s).result = .ok fresh) :
    ∃ made held, inst = some made ∧ Slot.Selects made .local .dir none held ∧
      fresh = ⟨made, registry, held, none⟩ := by
  cases inst with
  | none => cases h
  | some made =>
    rw [start, Act.bind_pure _ (fun x : Held × Slot => (⟨made, registry, x.1, none⟩ : Tiers)),
      Act.nested] at h
    rcases Slot.refuses_or_selects made .local .dir none with ⟨e, hselect⟩ | ⟨held, hselect⟩
    · obtain ⟨events, hrun, -⟩ := Slot.configure_of_refuses .local (pure ()) hselect
      rw [hrun] at h
      cases h
    · obtain ⟨events, hrun⟩ := Slot.configure_of_selects (pure ()) hselect
      rw [hrun] at h
      cases h
      exact ⟨made, held, rfl, hselect, rfl⟩

end Tiers

end Foreman
