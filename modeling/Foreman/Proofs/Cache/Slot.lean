import Foreman.Cache.Tiers
import Foreman.Proofs.Session.Act

namespace Foreman

theorem CacheTag.isA_none (tag : CacheTag) : tag.isA .none = false := by
  cases tag <;> rfl

inductive Instantiator.Refuses (inst : Instantiator) (tag : CacheTag) : Failure → Prop where
  | bare {why : Text} (h : inst tag = .error (.plain why)) :
      inst.Refuses tag (.ofKind .constructionFailure
        ("cannot instantiate build cache configuration of type " ++ tag.name ++ " : " ++ why))
  | known {kind : FailureKind} {message : Text} (h : inst tag = .error (.ofKind kind message)) :
      inst.Refuses tag (.ofKind kind message)
  | nothing (h : inst tag = .ok none) :
      inst.Refuses tag (.ofKind .constructionFailure
        ("no build cache configuration of type " ++ tag.name ++ " could be instantiated"))
  | wrong {conf : CacheConf} (h : inst tag = .ok (some conf)) (hwrong : ¬conf.isA tag) :
      inst.Refuses tag (.ofKind .constructionFailure
        ("instantiated build cache configuration of type " ++ conf.tag.name ++ " when " ++
          tag.name ++ " was asked"))

namespace Slot

def serves (slot : Slot) (tag : CacheTag) : Bool :=
  slot.any fun held => held.conf.isA tag

-- A fresh configuration as it enters a slot.
def admitted (slot : Slot) (tier : CacheTier) (conf : CacheConf) : Held :=
  ⟨{ conf with push := tier.pushesByDefault }, (slot.map fun held => held.serial + 1).getD 0⟩

def notices (slot : Slot) (tier : CacheTier) (made : CacheTag) : List (LogLevel × Text) :=
  slot.toList.map fun held =>
    (.info, "replacing " ++ tier.name ++ " build cache type " ++ held.conf.tag.name ++ " with " ++
      made.name)

inductive Refuses (inst : Instantiator) (tag : CacheTag) (slot : Slot) : Failure → Prop where
  | unset (h : tag = .none) :
      Refuses inst tag slot (.ofKind .invalidArgument "configuration type cannot be unset")
  | unmade {e : Failure} (hset : tag ≠ .none) (hserves : ¬slot.serves tag)
      (h : inst.Refuses tag e) : Refuses inst tag slot e

inductive Selects (inst : Instantiator) (tier : CacheTier) (tag : CacheTag) (slot : Slot) :
    Held → Prop where
  | kept {held : Held} (hslot : slot = some held) (h : held.conf.isA tag) :
      Selects inst tier tag slot held
  | fresh {conf : CacheConf} (hserves : ¬slot.serves tag) (hmake : inst tag = .ok (some conf))
      (h : conf.isA tag) : Selects inst tier tag slot (slot.admitted tier conf)

variable {inst : Instantiator} {tier : CacheTier} {tag : CacheTag} {slot : Slot}

theorem ne_none_of_isA {conf : CacheConf} (h : conf.isA tag) : tag ≠ .none := by
  rintro rfl
  simp [CacheConf.isA, CacheTag.isA_none] at h

theorem Selects.isA {held : Held} (h : Selects inst tier tag slot held) : held.conf.isA tag := by
  cases h with
  | kept _ h => exact h
  | fresh _ _ h => exact h

theorem refuses_or_selects (inst : Instantiator) (tier : CacheTier) (tag : CacheTag) (slot : Slot) :
    (∃ e, Refuses inst tag slot e) ∨ ∃ held, Selects inst tier tag slot held := by
  by_cases htag : tag = .none
  · exact .inl ⟨_, .unset htag⟩
  by_cases hserves : slot.serves tag
  · cases slot with
    | none => simp [serves] at hserves
    | some held => exact .inr ⟨held, .kept rfl hserves⟩
  · cases hmake : inst tag with
    | error e =>
      cases e with
      | ofKind kind message => exact .inl ⟨_, .unmade htag hserves (.known hmake)⟩
      | plain why => exact .inl ⟨_, .unmade htag hserves (.bare hmake)⟩
    | ok made =>
      cases made with
      | none => exact .inl ⟨_, .unmade htag hserves (.nothing hmake)⟩
      | some conf =>
        by_cases h : conf.isA tag
        · exact .inr ⟨_, .fresh hserves hmake h⟩
        · exact .inl ⟨_, .unmade htag hserves (.wrong hmake h)⟩

theorem instantiate_of_refuses {σ : Type} {e : Failure} (h : inst.Refuses tag e) (s : σ) :
    ∃ events, instantiate inst tag s = ⟨.error e, s, events⟩ ∧
      events.filterMap Event.report? = [] := by
  cases h with
  | bare h => exact ⟨[.noted _], by simp only [instantiate, h]; rfl, rfl⟩
  | known h => exact ⟨[], by simp only [instantiate, h]; rfl, rfl⟩
  | nothing h => exact ⟨[], by simp only [instantiate, h]; rfl, rfl⟩
  | wrong h hwrong => exact ⟨[], by simp only [instantiate, h, hwrong]; rfl, rfl⟩

theorem instantiate_of_makes {σ : Type} {conf : CacheConf} (hmake : inst tag = .ok (some conf))
    (h : conf.isA tag) (s : σ) : instantiate inst tag s = ⟨.ok conf, s, []⟩ := by
  simp only [instantiate, hmake, h, ite_true]
  rfl

theorem request_of_isA {held : Held} (h : held.conf.isA tag) :
    request inst tier tag (some held) = ⟨.ok held, some held, []⟩ := by
  simp only [request, ne_none_of_isA h, ite_false]
  change (if held.conf.isA tag then pure held else replace inst tier tag (some held) :
    Act Slot Held) (some held) = _
  rw [Act.ite_apply, if_pos h, Act.pure_apply]

theorem request_of_not_serves (htag : tag ≠ .none) (hserves : ¬slot.serves tag) :
    request inst tier tag slot = replace inst tier tag slot slot := by
  simp only [request, htag, ite_false]
  cases slot with
  | none => rfl
  | some held =>
    have h : ¬held.conf.isA tag := hserves
    change (if held.conf.isA tag then pure held else replace inst tier tag (some held) :
      Act Slot Held) (some held) = _
    rw [Act.ite_apply, if_neg h]

theorem request_of_refuses (tier : CacheTier) {e : Failure} (h : Refuses inst tag slot e) :
    ∃ events, request inst tier tag slot = ⟨.error e, slot, events⟩ ∧
      events.filterMap Event.report? = [] := by
  cases h with
  | unset h =>
    subst h
    exact ⟨[], rfl, rfl⟩
  | unmade htag hserves h =>
    obtain ⟨events, hmade, hreports⟩ := instantiate_of_refuses h slot
    rw [request_of_not_serves htag hserves]
    exact ⟨events, Act.bind_of_error hmade _, hreports⟩

theorem request_of_fresh {conf : CacheConf} (hserves : ¬slot.serves tag)
    (hmake : inst tag = .ok (some conf)) (h : conf.isA tag) :
    ∃ events, request inst tier tag slot =
        ⟨.ok (slot.admitted tier conf), some (slot.admitted tier conf), events⟩ ∧
      events.filterMap Event.report? = slot.notices tier conf.tag := by
  rw [request_of_not_serves (ne_none_of_isA h) hserves]
  have hmade := instantiate_of_makes hmake h slot
  cases slot with
  | none => exact ⟨[], Act.bind_of_ok hmade _, rfl⟩
  | some held => exact ⟨[.noted _, .reported _ _], Act.bind_of_ok hmade _, rfl⟩

theorem request_of_selects {held : Held} (h : Selects inst tier tag slot held) :
    ∃ events, request inst tier tag slot = ⟨.ok held, some held, events⟩ := by
  cases h with
  | kept hslot h =>
    subst hslot
    exact ⟨[], request_of_isA h⟩
  | fresh hserves hmake h =>
    obtain ⟨events, hrequest, -⟩ := request_of_fresh hserves hmake h
    exact ⟨events, hrequest⟩

theorem configure_of_refuses (tier : CacheTier) {e : Failure} (mutator : Mutator)
    (h : Refuses inst tag slot e) :
    ∃ events, configure inst tier tag mutator slot = ⟨.error e, slot, events⟩ ∧
      events.filterMap Event.report? = [] := by
  obtain ⟨events, hrequest, hreports⟩ := request_of_refuses tier h
  have hbody := Act.bind_of_error hrequest fun held => mutate held mutator
  refine ⟨.opened .cache "configure" (some [tier.name, tag.name]) :: events ++ [.closed], ?_, ?_⟩
  · simp only [configure, Act.within, hbody]
  · simpa [List.filterMap_cons, Event.report?] using hreports

-- What the mutator did stays, also if it failed. What is reported is said by the request first, and
-- then by the mutator.
theorem configure_of_request {held : Held} {s : Slot} {events : List Event} (mutator : Mutator)
    (h : request inst tier tag slot = ⟨.ok held, s, events⟩) :
    ∃ more, configure inst tier tag mutator slot =
        ⟨(mutator held.conf).result.map fun _ => { held with conf := (mutator held.conf).state },
          some { held with conf := (mutator held.conf).state }, more⟩ ∧
      more.filterMap Event.report? =
        events.filterMap Event.report? ++ (mutator held.conf).reports := by
  have hreports := (Act.reports_within .cache "configure" [tier.name, tag.name] _ slot).trans
    (Act.reports_bind_of_ok h fun held => mutate held mutator)
  refine ⟨_, Outcome.eq_mk ?_ ?_ rfl, hreports⟩
  · simp only [configure, Act.within, Act.bind_of_ok h, mutate]
  · simp only [configure, Act.within, Act.bind_of_ok h, mutate]

theorem configure_of_selects {held : Held} (mutator : Mutator)
    (h : Selects inst tier tag slot held) :
    ∃ events, configure inst tier tag mutator slot =
      ⟨(mutator held.conf).result.map fun _ => { held with conf := (mutator held.conf).state },
        some { held with conf := (mutator held.conf).state }, events⟩ := by
  obtain ⟨events, hrequest⟩ := request_of_selects h
  obtain ⟨more, hconfigure, -⟩ := configure_of_request mutator hrequest
  exact ⟨more, hconfigure⟩

end Slot

end Foreman
