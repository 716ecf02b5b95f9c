import Foreman.Proofs.Cache.Calls

namespace Foreman.Tiers

variable {tiers : Tiers} {tier : CacheTier} {tag : CacheTag}

theorem configure_before_mutator {e : Failure} (mutator : Mutator)
    (h : Slot.Refuses tiers.instantiator tag (tiers.slot tier) e) :
    (configure tier tag mutator tiers).result = .error e ∧
      (configure tier tag mutator tiers).state = tiers ∧
      (configure tier tag mutator tiers).reports = [] := by
  obtain ⟨events, hconfigure, hreports⟩ := configure_of_refuses mutator h
  rw [hconfigure]
  exact ⟨rfl, rfl, hreports⟩

theorem configure_in_mutator {held : Held} {e : Failure} {mutator : Mutator}
    (h : Slot.Selects tiers.instantiator tier tag (tiers.slot tier) held)
    (hfails : (mutator held.conf).result = .error e) :
    (configure tier tag mutator tiers).result = .error e ∧
      (configure tier tag mutator tiers).state.slot tier =
        some { held with conf := (mutator held.conf).state } ∧
      (configure tier tag mutator tiers).state.slot tier.other = tiers.slot tier.other := by
  obtain ⟨events, hconfigure⟩ := configure_of_selects mutator h
  rw [hconfigure, hfails]
  exact ⟨rfl, slot_setSlot _ _ _, slot_setSlot_other _ _ _⟩

-- A configuring call is refused or reaches its mutator. A refused call fails as `Slot.Refuses`
-- says, leaves the tiers as they were and reports nothing. The failure of a mutator goes through:
-- its tier then holds what was selected, as the mutator left it, and the other tier what it held.
theorem failed_configure (tiers : Tiers) (tier : CacheTier) (tag : CacheTag) (mutator : Mutator) :
    ((∃ e, Slot.Refuses tiers.instantiator tag (tiers.slot tier) e) ∨
      ∃ held, Slot.Selects tiers.instantiator tier tag (tiers.slot tier) held) ∧
    (∀ e, Slot.Refuses tiers.instantiator tag (tiers.slot tier) e →
      (configure tier tag mutator tiers).result = .error e ∧
        (configure tier tag mutator tiers).state = tiers ∧
        (configure tier tag mutator tiers).reports = []) ∧
    (∀ held e, Slot.Selects tiers.instantiator tier tag (tiers.slot tier) held →
      (mutator held.conf).result = .error e →
      (configure tier tag mutator tiers).result = .error e ∧
        (configure tier tag mutator tiers).state.slot tier =
          some { held with conf := (mutator held.conf).state } ∧
        (configure tier tag mutator tiers).state.slot tier.other = tiers.slot tier.other) :=
  ⟨Slot.refuses_or_selects _ _ _ _, fun _ h => configure_before_mutator mutator h,
    fun _ _ h hfails => configure_in_mutator h hfails⟩

-- The mutator disables a fresh http configuration and then fails. The slot holds it disabled.
theorem failed_configure_of_http :
    ∃ tiers : Tiers, ∃ mutator : Mutator,
      Slot.Selects tiers.instantiator .remote .http (tiers.slot .remote)
        ⟨⟨false, true, .http {}⟩, 0⟩ ∧
      (mutator ⟨false, true, .http {}⟩).result = .error (.plain "stop") ∧
      (configure .remote .http mutator tiers).result = .error (.plain "stop") ∧
      (configure .remote .http mutator tiers).state.slot .remote =
        some ⟨⟨false, false, .http {}⟩, 0⟩ := by
  let tiers : Tiers := ⟨.standard, Registry.builtin, ⟨⟨true, true, .dir {}⟩, 0⟩, none⟩
  let mutator : Mutator := fun conf => ⟨.error (.plain "stop"), { conf with enabled := false }, []⟩
  have hselects : Slot.Selects tiers.instantiator .remote .http (tiers.slot .remote)
      (Slot.admitted none .remote { settings := .http {} }) := .fresh Bool.false_ne_true rfl rfl
  have hfailed := (failed_configure tiers .remote .http mutator).2.2 _ _ hselects rfl
  exact ⟨tiers, mutator, hselects, rfl, hfailed.1, hfailed.2.1⟩

end Foreman.Tiers
