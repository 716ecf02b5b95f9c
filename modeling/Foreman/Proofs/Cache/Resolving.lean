import Foreman.Proofs.Cache.History
import Foreman.Proofs.Cache.Registering

namespace Foreman

open TierCall (Asks)

namespace Tiers

variable {tiers : Tiers} {tier : CacheTier} {tag : CacheTag} {call : TierCall}

-- A row of calls configures a tier if one of its requests for the tier is granted.
inductive Configures (tier : CacheTier) : Tiers → List TierCall → Prop where
  | now {tiers : Tiers} {call : TierCall} {calls : List TierCall} {tag : CacheTag}
      (hasks : Asks tier tag call) (hgrants : tiers.Grants tier tag) :
      Configures tier tiers (call :: calls)
  | later {tiers : Tiers} {call : TierCall} {calls : List TierCall}
      (h : Configures tier (call.perform tiers).state calls) :
      Configures tier tiers (call :: calls)

theorem isSome_slot_perform_iff :
    ((call.perform tiers).state.slot tier).isSome ↔
      (tiers.slot tier).isSome ∨ ∃ tag, Asks tier tag call ∧ tiers.Grants tier tag := by
  constructor
  · intro h
    have hmoves := moves_perform call tiers tier
    generalize hbefore : tiers.slot tier = before at hmoves
    generalize hafter : (call.perform tiers).state.slot tier = after at hmoves h
    cases hmoves with
    | empty => cases h
    | same _ _ => exact .inl rfl
    | fresh hasks hserves hmake hisA _ _ =>
      subst hbefore
      exact .inr ⟨_, hasks, grants_iff.mpr ⟨_, .fresh hserves hmake hisA⟩⟩
  · rintro (h | ⟨tag, hasks, hgrants⟩)
    · exact isSome_slot_after [call] h
    · obtain ⟨held, hselects⟩ := grants_iff.mp hgrants
      obtain ⟨conf, hstate, -⟩ := state_perform_of_selects hasks hselects
      rw [hstate, slot_setSlot]
      rfl

theorem isSome_slot_after_iff (calls : List TierCall) :
    ((tiers.after calls).slot tier).isSome ↔
      (tiers.slot tier).isSome ∨ Configures tier tiers calls := by
  induction calls generalizing tiers with
  | nil =>
    refine ⟨.inl, ?_⟩
    rintro (h | h)
    · exact h
    · cases h
  | cons call calls ih =>
    rw [after_cons, ih, isSome_slot_perform_iff]
    constructor
    · rintro ((h | ⟨tag, hasks, hgrants⟩) | h)
      · exact .inl h
      · exact .inr (.now hasks hgrants)
      · exact .inr (.later h)
    · rintro (h | h)
      · exact .inl (.inl h)
      · cases h with
        | now hasks hgrants => exact .inl (.inr ⟨_, hasks, hgrants⟩)
        | later h => exact .inr h

theorem instantiator_perform (call : TierCall) (tiers : Tiers) :
    (call.perform tiers).state.instantiator = tiers.instantiator := by
  rcases call.isOn_or_register .local with hon | hon | ⟨tag, factory, rfl⟩
  · exact ((Confined.perform hon).frame tiers).instantiator
  · exact ((Confined.perform hon).frame tiers).instantiator
  · simp only [TierCall.perform, Act.bind_pure, register, Act.on]

theorem instantiator_after (calls : List TierCall) (tiers : Tiers) :
    (tiers.after calls).instantiator = tiers.instantiator := by
  induction calls generalizing tiers with
  | nil => rfl
  | cons call calls ih => exact (ih _).trans (instantiator_perform call tiers)

theorem registry_perform (call : TierCall) (tiers : Tiers) :
    tiers.registry <+: (call.perform tiers).state.registry := by
  rcases call.isOn_or_register .local with hon | hon | ⟨tag, factory, rfl⟩
  · simp only [((Confined.perform hon).frame tiers).registry, List.prefix_rfl]
  · simp only [((Confined.perform hon).frame tiers).registry, List.prefix_rfl]
  · simp only [TierCall.perform, Act.bind_pure, register, Act.on]
    exact Registry.register_extends tiers.registry tag factory

theorem registry_after (calls : List TierCall) (tiers : Tiers) :
    tiers.registry <+: (tiers.after calls).registry := by
  induction calls generalizing tiers with
  | nil => exact List.prefix_rfl
  | cons call calls ih => exact (registry_perform call tiers).trans (ih _)

-- What holds of all that the instantiator makes, and hangs on the class only, holds of all that the
-- slots ever hold.
theorem forall_held_after {P : CacheConf → Prop} (hkind : ∀ {a b}, b.kind = a.kind → P a → P b)
    (hmake : ∀ {tag conf}, tiers.instantiator tag = .ok (some conf) → P conf)
    (hheld : ∀ {tier held}, tiers.slot tier = some held → P held.conf) (calls : List TierCall) :
    ∀ {tier held}, (tiers.after calls).slot tier = some held → P held.conf := by
  induction calls generalizing tiers with
  | nil => exact hheld
  | cons call calls ih =>
    refine ih (fun h => hmake (by rwa [instantiator_perform] at h)) ?_
    intro tier held h
    have hmoves := moves_perform call tiers tier
    rw [h] at hmoves
    generalize hbefore : tiers.slot tier = before at hmoves
    cases hmoves with
    | same _ hsame => exact hkind hsame (hheld hbefore)
    | fresh _ _ hmade _ _ hsame => exact hkind hsame (hmake hmade)

theorem resolve_of_slot {held : Held} (h : tiers.slot tier = some held) :
    (resolve tier tiers).result = (tiers.registry.resolve held.conf.tag tiers).result := by
  simp only [resolve, Act.get_bind, h]

theorem resolve_of_empty (h : tiers.slot tier = none) :
    (resolve tier tiers).result = .error noRemote := by
  simp only [resolve, Act.get_bind, h]
  rfl

-- Tiers whose configurations can all be built, because their types have a factory from the start.
structure Served (tiers : Tiers) : Prop where
  instantiator : tiers.instantiator = .standard
  registry : Registry.builtin <+: tiers.registry
  factory : ∀ {tier held}, tiers.slot tier = some held →
    ∃ name, Registry.builtinFactory? held.conf.tag = some name

namespace Served

theorem factory_of_standard {conf : CacheConf}
    (h : Instantiator.standard tag = .ok (some conf)) :
    ∃ name, Registry.builtinFactory? conf.tag = some name := by
  cases tag <;> cases h
  · exact ⟨"dir_cache", rfl⟩
  · exact ⟨"dir_cache", rfl⟩
  · exact ⟨"http_cache", rfl⟩
  · exact ⟨"daemon_cache", rfl⟩

theorem after (h : tiers.Served) (calls : List TierCall) : (tiers.after calls).Served := by
  refine ⟨(instantiator_after calls tiers).trans h.instantiator,
    h.registry.trans (registry_after calls tiers), ?_⟩
  refine forall_held_after (P := fun conf => ∃ name, Registry.builtinFactory? conf.tag = some name)
    ?_ ?_ h.factory calls
  · intro a b hkind hname
    rwa [CacheConf.tag_eq_of_kind_eq hkind]
  · intro tag conf hmake
    rw [h.instantiator] at hmake
    exact factory_of_standard hmake

theorem resolve (h : tiers.Served) (hsome : (tiers.slot tier).isSome) :
    ∃ held name, tiers.slot tier = some held ∧
      Registry.builtinFactory? held.conf.tag = some name ∧
      (Tiers.resolve tier tiers).result = .ok name := by
  obtain ⟨held, hheld⟩ := Option.isSome_iff_exists.mp hsome
  obtain ⟨name, hname⟩ := h.factory hheld
  refine ⟨held, name, hheld, hname, ?_⟩
  rw [resolve_of_slot hheld]
  exact Registry.resolve_builtin h.registry hname tiers

theorem start {registry : Registry} (h : Registry.builtin <+: registry) :
    Served ⟨.standard, registry, ⟨⟨true, true, .dir {}⟩, 0⟩, none⟩ := by
  refine ⟨rfl, h, ?_⟩
  intro tier held hheld
  cases tier <;> cases hheld
  exact ⟨"dir_cache", rfl⟩

end Served

-- Tiers with the standard instantiator, on the built-in registrations and whatever was and will be
-- registered besides, accepted or not. The local tier always resolves to the factory that is built
-- in for its type. The remote tier does so once it is configured, and until then fails for the
-- only reason that it is not.
theorem resolve_in_every_run {σ : Type} (s : σ) (early : List Registration) :
    ∃ fresh, (start ((Registry.ofList Registry.builtin []).state.after early)
        (some Instantiator.standard) s).result = .ok fresh ∧
      ∀ calls,
        (∃ held name, (fresh.after calls).slot .local = some held ∧
          Registry.builtinFactory? held.conf.tag = some name ∧
          (resolve .local (fresh.after calls)).result = .ok name) ∧
        (Configures .remote fresh calls →
          ∃ held name, (fresh.after calls).slot .remote = some held ∧
            Registry.builtinFactory? held.conf.tag = some name ∧
            (resolve .remote (fresh.after calls)).result = .ok name) ∧
        (¬Configures .remote fresh calls →
          (resolve .remote (fresh.after calls)).result = .error (.ofKind .remoteNotConfigured
            "a type for the remote build cache must be configured first")) := by
  refine ⟨⟨.standard, _, ⟨⟨true, true, .dir {}⟩, 0⟩, none⟩, rfl, fun calls => ?_⟩
  have hserved := (Served.start (Registry.after_extends Registry.builtin early)).after calls
  refine ⟨hserved.resolve rfl, ?_, ?_⟩
  · intro hconfigures
    exact hserved.resolve ((isSome_slot_after_iff calls).mpr (.inr hconfigures))
  · intro hnever
    refine resolve_of_empty (Option.not_isSome_iff_eq_none.mp fun hsome => ?_)
    rcases (isSome_slot_after_iff calls).mp hsome with hfilled | hconfigures
    · cases hfilled
    · exact hnever hconfigures

end Tiers

end Foreman
