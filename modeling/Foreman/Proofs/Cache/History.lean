import Foreman.Proofs.Cache.Independence

namespace Foreman

open TierCall (Asks)

-- Whether a configuration in a slot is followed by another one, or by itself with other settings.
def Held.Precedes (a b : Held) : Prop :=
  a.serial < b.serial ∨ (a.serial = b.serial ∧ b.conf.kind = a.conf.kind)

theorem Held.Precedes.trans {a b c : Held} (hab : a.Precedes b) (hbc : b.Precedes c) :
    a.Precedes c := by
  rcases hab with hab | ⟨hab, hkind⟩ <;> rcases hbc with hbc | ⟨hbc, hkind'⟩
  · exact .inl (Nat.lt_trans hab hbc)
  · exact .inl (hbc ▸ hab)
  · exact .inl (hab ▸ hbc)
  · exact .inr ⟨hab.trans hbc, hkind'.trans hkind⟩

namespace Slot

-- What a call makes of the slot of a tier. Nothing is ever taken out of it.
inductive Moves (inst : Instantiator) (tier : CacheTier) (call : TierCall) :
    Slot → Slot → Prop where
  | empty : Moves inst tier call none none
  | same {a b : Held} (hserial : b.serial = a.serial) (hkind : b.conf.kind = a.conf.kind) :
      Moves inst tier call (some a) (some b)
  | fresh {slot : Slot} {tag : CacheTag} {conf : CacheConf} {held : Held}
      (hasks : Asks tier tag call) (hserves : ¬slot.serves tag)
      (hmake : inst tag = .ok (some conf)) (hisA : conf.isA tag)
      (hserial : held.serial = (slot.admitted tier conf).serial)
      (hkind : held.conf.kind = conf.kind) : Moves inst tier call slot (some held)

variable {inst : Instantiator} {tier : CacheTier} {call : TierCall} {before after : Slot}

theorem Moves.refl (slot : Slot) : Moves inst tier call slot slot := by
  cases slot with
  | none => exact .empty
  | some held => exact .same rfl rfl

theorem Moves.precedes {a : Held} (h : Moves inst tier call before after) (ha : before = some a) :
    ∃ b, after = some b ∧ a.Precedes b := by
  cases h with
  | empty => cases ha
  | same hserial hkind =>
    cases ha
    exact ⟨_, rfl, .inr ⟨hserial.symm, hkind⟩⟩
  | @fresh _ _ _ held _ _ _ _ hserial _ =>
    subst ha
    refine ⟨held, rfl, .inl ?_⟩
    rw [hserial]
    exact Nat.lt_succ_self _

-- Only a request that the configuration cannot serve replaces it.
theorem Moves.asks_of_serial_ne {a b : Held} (h : Moves inst tier call (some a) (some b))
    (hne : b.serial ≠ a.serial) : ∃ tag, Asks tier tag call ∧ ¬a.conf.isA tag := by
  cases h with
  | same hserial _ => exact absurd hserial hne
  | fresh hasks hserves _ _ _ _ => exact ⟨_, hasks, hserves⟩

end Slot

namespace Tiers

variable {tiers : Tiers} {tier : CacheTier} {tag : CacheTag} {call : TierCall}

theorem requests_of_asks (hasks : Asks tier tag call) :
    ∃ work act, Requests tier tag work act ∧ (∀ conf, (work conf).state.kind = conf.kind) ∧
      ∀ tiers, (call.perform tiers).state = (act tiers).state := by
  cases hasks with
  | configure _ change =>
    exact ⟨_, _, .type tag change.mutator, change.kind_eq, fun tiers => by
      simp only [TierCall.perform, Act.bind_pure]⟩
  | configureAs cls change =>
    exact ⟨_, _, .settings cls change.mutator, cls.kind_checked change, fun tiers => by
      simp only [TierCall.perform, Act.bind_pure]⟩

theorem state_perform_of_refuses {e : Failure} (hasks : Asks tier tag call)
    (h : Slot.Refuses tiers.instantiator tag (tiers.slot tier) e) :
    (call.perform tiers).state = tiers := by
  obtain ⟨work, act, hrequests, -, hperform⟩ := requests_of_asks hasks
  obtain ⟨events, hact, -⟩ := hrequests.of_refuses h
  rw [hperform, hact]

theorem state_perform_of_selects {held : Held} (hasks : Asks tier tag call)
    (h : Slot.Selects tiers.instantiator tier tag (tiers.slot tier) held) :
    ∃ conf, (call.perform tiers).state = tiers.setSlot tier (some { held with conf }) ∧
      conf.kind = held.conf.kind := by
  obtain ⟨work, act, hrequests, hkind, hperform⟩ := requests_of_asks hasks
  obtain ⟨events, hact⟩ := hrequests.of_selects h
  rw [hperform, hact]
  exact ⟨_, rfl, hkind held.conf⟩

theorem moves_of_asks (tiers : Tiers) (hasks : Asks tier tag call) :
    Slot.Moves tiers.instantiator tier call (tiers.slot tier)
      ((call.perform tiers).state.slot tier) := by
  rcases Slot.refuses_or_selects tiers.instantiator tier tag (tiers.slot tier) with
    ⟨e, h⟩ | ⟨held, h⟩
  · rw [state_perform_of_refuses hasks h]
    exact .refl _
  · obtain ⟨conf, hstate, hkind⟩ := state_perform_of_selects hasks h
    rw [hstate, slot_setSlot]
    cases h with
    | kept hslot _ =>
      rw [hslot]
      exact .same rfl hkind
    | fresh hserves hmake hisA => exact .fresh hasks hserves hmake hisA rfl hkind

theorem moves_mutate (tiers : Tiers) (tier : CacheTier) (change : Change) :
    Slot.Moves tiers.instantiator tier (.mutate tier change) (tiers.slot tier)
      (((TierCall.mutate tier change).perform tiers).state.slot tier) := by
  simp only [TierCall.perform, Act.bind_pure, slot_mutate]
  cases tiers.slot tier with
  | none => exact .empty
  | some held => exact .same rfl (change.kind_eq held.conf)

theorem moves_of_isOn (tiers : Tiers) (hon : call.isOn tier) :
    Slot.Moves tiers.instantiator tier call (tiers.slot tier)
      ((call.perform tiers).state.slot tier) := by
  cases call with
  | configure t tag change =>
    obtain rfl := of_decide_eq_true hon
    exact moves_of_asks tiers (.configure tag change)
  | configureAs t cls change =>
    obtain rfl := of_decide_eq_true hon
    exact moves_of_asks tiers (.configureAs cls change)
  | mutate t change =>
    obtain rfl := of_decide_eq_true hon
    exact moves_mutate tiers t change
  | resolve t =>
    simp only [TierCall.perform, Act.bind_pure, state_resolve]
    exact .refl _
  | register tag factory => cases hon

theorem moves_perform (call : TierCall) (tiers : Tiers) (tier : CacheTier) :
    Slot.Moves tiers.instantiator tier call (tiers.slot tier)
      ((call.perform tiers).state.slot tier) := by
  rcases call.isOn_or_register tier with hon | hother | ⟨tag, factory, rfl⟩
  · exact moves_of_isOn tiers hon
  · have hslot := slot_unchanged ⟨tiers, call⟩ hother
    simp only [Step.outcome] at hslot
    rw [hslot]
    exact .refl _
  · simp only [TierCall.perform, Act.bind_pure, slot_register]
    exact .refl _

theorem isA_of_grants {held : Held} (hasks : Asks tier tag call) (hgrants : tiers.Grants tier tag)
    (hheld : (call.perform tiers).state.slot tier = some held) : held.conf.isA tag := by
  obtain ⟨chosen, h⟩ := grants_iff.mp hgrants
  obtain ⟨conf, hstate, hkind⟩ := state_perform_of_selects hasks h
  rw [hstate, slot_setSlot] at hheld
  cases hheld
  rw [CacheConf.isA_eq_of_kind_eq hkind]
  exact h.isA

-- The induction is on the calls. Numbers only grow, so that equal ones belong to one
-- configuration, whose class does not change.
theorem precedes_after {a : Held} (calls : List TierCall) (ha : tiers.slot tier = some a) :
    ∃ b, (tiers.after calls).slot tier = some b ∧ a.Precedes b := by
  induction calls generalizing tiers a with
  | nil => exact ⟨a, ha, .inr ⟨rfl, rfl⟩⟩
  | cons call calls ih =>
    obtain ⟨b, hb, hab⟩ := (moves_perform call tiers tier).precedes ha
    obtain ⟨c, hc, hbc⟩ := ih hb
    exact ⟨c, hc, hab.trans hbc⟩

theorem isSome_slot_after (calls : List TierCall) (h : (tiers.slot tier).isSome) :
    ((tiers.after calls).slot tier).isSome := by
  obtain ⟨a, ha⟩ := Option.isSome_iff_exists.mp h
  obtain ⟨b, hb, -⟩ := precedes_after calls ha
  rw [hb]
  rfl

theorem kind_eq_of_serial_eq {a b : Held} (calls : List TierCall)
    (ha : tiers.slot tier = some a) (hb : (tiers.after calls).slot tier = some b)
    (hserial : b.serial = a.serial) : b.conf.kind = a.conf.kind := by
  obtain ⟨c, hc, hac⟩ := precedes_after calls ha
  obtain rfl := Option.some.inj (hb.symm.trans hc)
  rcases hac with hlt | ⟨-, hkind⟩
  · omega
  · exact hkind

-- The slots over every run of fresh tiers, whatever makes their configurations and whichever calls
-- fail: nothing is ever taken out of a slot, a configuration is replaced only by a request for a
-- type that it is not of, and it is of every type that was granted while it is there.
theorem slots_in_every_run {σ : Type} {registry : Registry} {inst : Option Instantiator} {s : σ}
    {fresh : Tiers} (hstart : (start registry inst s).result = .ok fresh)
    (calls : List TierCall) (tier : CacheTier) :
    ((fresh.after calls).slot .local).isSome ∧
    (∀ more, ((fresh.after calls).slot tier).isSome →
      ((fresh.after (calls ++ more)).slot tier).isSome) ∧
    (∀ call a b, (fresh.after calls).slot tier = some a →
      (fresh.after (calls ++ [call])).slot tier = some b → b.serial ≠ a.serial →
      ∃ tag, Asks tier tag call ∧ ¬a.conf.isA tag) ∧
    (∀ call tag more a b, Asks tier tag call → (fresh.after calls).Grants tier tag →
      (fresh.after (calls ++ [call])).slot tier = some a →
      (fresh.after (calls ++ call :: more)).slot tier = some b → b.serial = a.serial →
      b.conf.isA tag) := by
  obtain ⟨made, held, -, -, hfresh⟩ := start_eq_ok hstart
  refine ⟨?_, ?_, ?_, ?_⟩
  · exact isSome_slot_after calls (by rw [hfresh]; rfl)
  · intro more hsome
    rw [after_append]
    exact isSome_slot_after more hsome
  · intro call a b ha hb hne
    rw [after_append] at hb
    have hmoves := moves_perform call (fresh.after calls) tier
    rw [ha, show ((call.perform (fresh.after calls)).state.slot tier) = some b from hb] at hmoves
    exact hmoves.asks_of_serial_ne hne
  · intro call tag more a b hasks hgrants ha hb hserial
    rw [after_append] at ha hb
    have hkind := kind_eq_of_serial_eq more ha hb hserial
    rw [CacheConf.isA_eq_of_kind_eq hkind]
    exact isA_of_grants hasks hgrants ha

-- The remote tier is configured for http, and then for any remote cache, which http serves.
theorem slots_of_http_tiers :
    ∃ fresh, (start Registry.builtin (some Instantiator.standard) ()).result = .ok fresh ∧
      ∃ a b, (fresh.after [.configure .remote .http .nothing]).Grants .remote .remote ∧
        (fresh.after [.configure .remote .http .nothing,
          .configure .remote .remote .nothing]).slot .remote = some a ∧
        (fresh.after [.configure .remote .http .nothing, .configure .remote .remote .nothing,
          .mutate .remote .nothing]).slot .remote = some b ∧
        b.serial = a.serial ∧ b.conf.isA .remote := by
  have hstart : (start Registry.builtin (some Instantiator.standard) ()).result =
      .ok ⟨.standard, Registry.builtin, ⟨⟨true, true, .dir {}⟩, 0⟩, none⟩ := rfl
  have hrun := slots_in_every_run hstart [.configure .remote .http .nothing] .remote
  have hisA := hrun.2.2.2 _ .remote [.mutate .remote .nothing] ⟨⟨false, true, .http {}⟩, 0⟩
    ⟨⟨false, true, .http {}⟩, 0⟩ (.configure .remote .nothing) ⟨_, rfl⟩ rfl rfl rfl
  exact ⟨_, hstart, _, _, ⟨_, rfl⟩, rfl, rfl, rfl, hisA⟩

end Tiers

end Foreman
