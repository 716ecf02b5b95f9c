import Foreman.Cache.Instantiators
import Foreman.Proofs.Cache.Calls

namespace Foreman

theorem ConfClass.settings_of_not_has {cls : ConfClass} {conf : CacheConf}
    (htag : conf.isA cls.tag) (h : ¬cls.has conf) : conf.settings = .plain conf.tag := by
  obtain ⟨push, enabled, settings⟩ := conf
  cases settings with
  | plain tag => rfl
  | dir | sharedDir | http | daemon => cases cls <;> first | exact absurd rfl h | cases htag

namespace Slot

-- A configuration is made for a request, and the slot takes it in.
structure Takes (inst : Instantiator) (tag : CacheTag) (slot : Slot) (conf : CacheConf) :
    Prop where
  not_serves : ¬slot.serves tag
  made : inst tag = .ok (some conf)
  isA : conf.isA tag

variable {inst : Instantiator} {tier : CacheTier} {tag : CacheTag} {slot : Slot}

theorem Takes.ne_admitted {conf : CacheConf} (h : Takes inst tag slot conf) (tier : CacheTier) :
    slot ≠ some (slot.admitted tier conf) := by
  intro hslot
  have hserves : slot.serves tag := by
    rw [hslot]
    exact h.isA
  exact h.not_serves hserves

theorem Takes.unique {conf other : CacheConf} (h : Takes inst tag slot conf)
    (hother : Takes inst tag slot other) : other = conf := by
  have hmade := hother.made
  rw [h.made] at hmade
  cases hmade
  rfl

theorem Refuses.not_takes {e : Failure} {conf : CacheConf} (h : Refuses inst tag slot e) :
    ¬Takes inst tag slot conf := by
  intro htakes
  cases h with
  | unset h => exact ne_none_of_isA htakes.isA h
  | unmade _ _ h =>
    have hmade := htakes.made
    cases h with
    | bare h | known h | nothing h =>
      rw [h] at hmade
      cases hmade
    | wrong h hwrong =>
      rw [h] at hmade
      cases hmade
      exact hwrong htakes.isA

theorem not_takes_of_isA {held : Held} {conf : CacheConf} (h : held.conf.isA tag) :
    ¬Takes inst tag (some held) conf :=
  fun htakes => htakes.not_serves h

end Slot

namespace Tiers

variable {tiers : Tiers} {tier : CacheTier} {cls : ConfClass} {e : Failure}

-- The call fails before its mutator runs. The mutator that does nothing never fails itself.
def FailsEarly (tiers : Tiers) (tier : CacheTier) (cls : ConfClass) (e : Failure) : Prop :=
  (configureAs tier cls (pure ()) tiers).result = .error e

theorem configureAs_of_not_has {held : Held} {s : Slot} {events : List Event}
    (h : Slot.request tiers.instantiator tier cls.tag (tiers.slot tier) = ⟨.ok held, s, events⟩)
    (hhas : ¬cls.has held.conf) (mutator : Mutator) :
    ∃ more, configureAs tier cls mutator tiers =
        ⟨.error (notOfClass held.conf.tag), tiers.setSlot tier (some held), more⟩ ∧
      more.filterMap Event.report? = events.filterMap Event.report? := by
  obtain ⟨more, hcall, hreports⟩ := configureAs_of_request mutator h
  rw [cls.checked_apply, if_neg hhas] at hcall hreports
  exact ⟨more, hcall, hreports.trans (List.append_nil _)⟩

theorem FailsEarly.cases (h : tiers.FailsEarly tier cls e) :
    Slot.Refuses tiers.instantiator cls.tag (tiers.slot tier) e ∨
      ∃ held, Slot.Selects tiers.instantiator tier cls.tag (tiers.slot tier) held ∧
        ¬cls.has held.conf ∧ e = notOfClass held.conf.tag := by
  rw [FailsEarly] at h
  rcases Slot.refuses_or_selects tiers.instantiator tier cls.tag (tiers.slot tier) with
    ⟨e', hrefuses⟩ | ⟨held, hselects⟩
  · obtain ⟨events, hcall, -⟩ := configureAs_of_refuses (pure ()) hrefuses
    rw [hcall] at h
    cases h
    exact .inl hrefuses
  · obtain ⟨events, hcall⟩ := Requests.of_selects (.settings cls (pure ())) hselects
    rw [hcall, cls.checked_apply] at h
    by_cases hhas : cls.has held.conf
    · rw [if_pos hhas] at h
      cases h
    · rw [if_neg hhas] at h
      cases h
      exact .inr ⟨held, hselects, hhas, rfl⟩

-- What an early failure leaves: the tiers as they were if the request took nothing in, else the
-- tiers with what it took in.
theorem FailsEarly.outcome (h : tiers.FailsEarly tier cls e) (mutator : Mutator) :
    ∃ s events, configureAs tier cls mutator tiers = ⟨.error e, s, events⟩ ∧
      ((s = tiers ∧ events.filterMap Event.report? = [] ∧
          ∀ conf, ¬Slot.Takes tiers.instantiator cls.tag (tiers.slot tier) conf) ∨
        ∃ conf, Slot.Takes tiers.instantiator cls.tag (tiers.slot tier) conf ∧
          ¬cls.has conf ∧ e = notOfClass conf.tag ∧
          s = tiers.setSlot tier (some ((tiers.slot tier).admitted tier conf)) ∧
          events.filterMap Event.report? = (tiers.slot tier).notices tier conf.tag) := by
  rcases h.cases with hrefuses | ⟨held, hselects, hhas, rfl⟩
  · obtain ⟨events, hcall, hreports⟩ := configureAs_of_refuses mutator hrefuses
    exact ⟨tiers, events, hcall, .inl ⟨rfl, hreports, fun conf => hrefuses.not_takes⟩⟩
  cases hselects with
  | kept hslot hisA =>
    have hrequest : Slot.request tiers.instantiator tier cls.tag (tiers.slot tier) =
        ⟨.ok held, some held, []⟩ := by
      rw [hslot]
      exact Slot.request_of_isA hisA
    obtain ⟨events, hcall, hreports⟩ := configureAs_of_not_has hrequest hhas mutator
    refine ⟨_, events, hcall, .inl ⟨?_, hreports, ?_⟩⟩
    · rw [← hslot, setSlot_slot]
    · intro conf
      rw [hslot]
      exact Slot.not_takes_of_isA hisA
  | @fresh conf hserves hmake hisA =>
    obtain ⟨events, hrequest, hnotices⟩ :=
      @Slot.request_of_fresh _ tier _ _ conf hserves hmake hisA
    obtain ⟨more, hcall, hreports⟩ := configureAs_of_not_has hrequest hhas mutator
    exact ⟨_, more, hcall,
      .inr ⟨conf, ⟨hserves, hmake, hisA⟩, hhas, rfl, rfl, hreports.trans hnotices⟩⟩

-- A call for the settings of a class that fails before its mutator runs leaves the tiers as they
-- were and reports nothing exactly if no configuration was made for it and taken in. One that was
-- taken in has none of the settings of the class, which is what the failure says. It then stays in
-- its slot, in the place of what was there, and the report of that has been given.
theorem early_failure (h : tiers.FailsEarly tier cls e) (mutator : Mutator) :
    (configureAs tier cls mutator tiers).result = .error e ∧
    ((configureAs tier cls mutator tiers).state = tiers ∧
        (configureAs tier cls mutator tiers).reports = [] ↔
      ∀ conf, ¬Slot.Takes tiers.instantiator cls.tag (tiers.slot tier) conf) ∧
    ∀ conf, Slot.Takes tiers.instantiator cls.tag (tiers.slot tier) conf →
      conf.settings = .plain conf.tag ∧ e = notOfClass conf.tag ∧
        (configureAs tier cls mutator tiers).state =
          tiers.setSlot tier (some ((tiers.slot tier).admitted tier conf)) ∧
        (configureAs tier cls mutator tiers).reports =
          (tiers.slot tier).notices tier conf.tag := by
  obtain ⟨s, events, hcall, hcases⟩ := h.outcome mutator
  rw [hcall]
  refine ⟨rfl, ?_⟩
  rcases hcases with ⟨hs, hreports, hnone⟩ | ⟨conf, htakes, hhas, he, hs, hreports⟩
  · exact ⟨⟨fun _ => hnone, fun _ => ⟨hs, hreports⟩⟩, fun conf htakes => absurd htakes (hnone conf)⟩
  · refine ⟨⟨fun hsame => ?_, fun hnone => absurd htakes (hnone conf)⟩, fun other hother => ?_⟩
    · -- The slot cannot be as it was.
      have hslot : s.slot tier = tiers.slot tier := congrArg (slot · tier) hsame.1
      rw [hs, slot_setSlot] at hslot
      exact absurd hslot.symm (htakes.ne_admitted tier)
    · rw [htakes.unique hother]
      exact ⟨ConfClass.settings_of_not_has htakes.isA hhas, he, hs, hreports⟩

-- What is in the slot already is asked again and left where it is.
theorem early_failure_of_kept :
    ∃ tiers : Tiers,
      (configureAs .remote .http (pure ()) tiers).result = .error (notOfClass .http) ∧
      (∀ conf, ¬Slot.Takes tiers.instantiator .http (tiers.slot .remote) conf) ∧
      ∀ mutator, (configureAs .remote .http mutator tiers).state = tiers ∧
        (configureAs .remote .http mutator tiers).reports = [] := by
  let tiers : Tiers := ⟨.plain, Registry.builtin, ⟨{ settings := .plain .dir }, 0⟩,
    some ⟨{ settings := .plain .http }, 0⟩⟩
  have hfails : tiers.FailsEarly .remote .http (notOfClass .http) := rfl
  have hnone : ∀ conf, ¬Slot.Takes tiers.instantiator .http (tiers.slot .remote) conf :=
    fun conf => Slot.not_takes_of_isA rfl
  exact ⟨tiers, hfails, hnone, fun mutator => (early_failure hfails mutator).2.1.mpr hnone⟩

-- Fresh tiers, and an implementation of the type of a shared directory without the settings of
-- one. The call fails, and the directory is gone.
theorem replaced_by_early_failure :
    ∃ tiers, (@start Unit Registry.builtin (some .plain) ()).result = .ok tiers ∧
      tiers.slot .local = some ⟨{ push := true, settings := .plain .dir }, 0⟩ ∧
      tiers.FailsEarly .local .sharedDir (notOfClass .sharedDir) ∧
      (configureAs .local .sharedDir (pure ()) tiers).state.slot .local =
        some ⟨{ push := true, settings := .plain .sharedDir }, 1⟩ ∧
      (configureAs .local .sharedDir (pure ()) tiers).reports =
        [(LogLevel.info, ("replacing local build cache type dir with shared_dir" : Text))] :=
  ⟨_, rfl, rfl, rfl, rfl, by decide⟩

end Tiers

end Foreman
