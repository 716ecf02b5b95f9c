import Foreman.Proofs.Cache.Entries
import Foreman.Proofs.Cache.Independence
import Foreman.Proofs.Cache.Resolving
import Mathlib.Data.List.Induction

namespace Foreman

def HttpSettings.Safe (http : HttpSettings) : Prop :=
  http.url = [] ∨ ("https://" : Text) <+: http.url ∨
    ("http://" : Text) <+: http.url ∧ http.allowInsecure = true

namespace CacheConf

def AddressSafe (conf : CacheConf) : Prop :=
  ∀ http, conf.settings = .http http → http.Safe

theorem safe_of_checkHttp {http : HttpSettings} (h : checkHttp http = .ok ()) : http.Safe := by
  unfold checkHttp at h
  simp only at h
  split at h
  case isTrue hempty => exact .inl (List.isEmpty_iff.mp hempty)
  case isFalse =>
    cases hsecure : ("https://" : Text).isPrefixOf http.url with
    | true => exact .inr (.inl (List.isPrefixOf_iff_prefix.mp hsecure))
    | false =>
      cases hplain : ("http://" : Text).isPrefixOf http.url with
      | false => simp [hsecure, hplain] at h
      | true =>
        cases haccepted : http.allowInsecure with
        | false => simp [hsecure, hplain, haccepted] at h
        | true => exact .inr (.inr ⟨List.isPrefixOf_iff_prefix.mp hplain, haccepted⟩)

theorem addressSafe_of_check {conf : CacheConf} (h : conf.check = .ok ()) : conf.AddressSafe := by
  intro http hsettings
  unfold check at h
  rw [hsettings] at h
  exact safe_of_checkHttp h

theorem addressSafe_of_standard {conf : CacheConf} {tag : CacheTag}
    (h : Instantiator.standard tag = .ok (some conf)) (push : Bool) :
    AddressSafe { conf with push } := by
  intro http hsettings
  cases tag <;> cases h <;> cases hsettings
  exact .inl rfl

end CacheConf

def Change.configuring (lists : List (List (Text × Text))) : Change :=
  ⟨CacheConf.configureAll lists, CacheConf.kind_configureAll lists⟩

-- What a call works on: what serves a type or a class, or what is in the slot already.
inductive Aim where
  | type (tag : CacheTag)
  | settings (cls : ConfClass)
  | present

structure Feed where
  tier : CacheTier
  aim : Aim
  lists : List (List (Text × Text))

namespace Feed

def call (feed : Feed) : TierCall :=
  match feed.aim with
  | .type tag => .configure feed.tier tag (.configuring feed.lists)
  | .settings cls => .configureAs feed.tier cls (.configuring feed.lists)
  | .present => .mutate feed.tier (.configuring feed.lists)

theorem isOn_call (feed : Feed) : feed.call.isOn feed.tier := by
  cases feed with
  | mk tier aim lists => cases aim <;> exact decide_eq_true rfl

end Feed

namespace Tiers

def fed (tiers : Tiers) (feeds : List Feed) : Tiers :=
  tiers.after (feeds.map Feed.call)

theorem fed_concat (tiers : Tiers) (feeds : List Feed) (feed : Feed) :
    tiers.fed (feeds ++ [feed]) = (feed.call.perform (tiers.fed feeds)).state := by
  rw [fed, List.map_append, after_append]
  rfl

theorem slot_perform_feed_of_ne {tier : CacheTier} {feed : Feed} (hne : feed.tier ≠ tier)
    (tiers : Tiers) : (feed.call.perform tiers).state.slot tier = tiers.slot tier := by
  have hother : feed.tier = tier.other := (feed.tier.eq_or_eq_other tier).resolve_left hne
  exact slot_unchanged ⟨tiers, feed.call⟩ (hother ▸ feed.isOn_call)

-- What a call finds or makes before its mutator runs: `prior` was in the slot, or is fresh.
def Presents (tiers : Tiers) (tier : CacheTier) (prior : Held) : Prop :=
  tiers.slot tier = some prior ∨ prior.conf.AddressSafe

theorem presents_of_selects {tiers : Tiers} {tier : CacheTier} {tag : CacheTag} {prior : Held}
    (hstandard : tiers.instantiator = .standard)
    (h : Slot.Selects tiers.instantiator tier tag (tiers.slot tier) prior) :
    tiers.Presents tier prior := by
  cases h with
  | kept hslot _ => exact .inl hslot
  | fresh _ hmake _ =>
    rw [hstandard] at hmake
    exact .inr (CacheConf.addressSafe_of_standard hmake _)

theorem Requests.slot_cases {tiers : Tiers} {tier : CacheTier} {tag : CacheTag} {work : Mutator}
    {call : Act Tiers CacheConf} {held : Held} (h : Requests tier tag work call)
    (hstandard : tiers.instantiator = .standard)
    (hheld : (call tiers).state.slot tier = some held) :
    ∃ prior, tiers.Presents tier prior ∧
      (held = prior ∧ (∃ e, (call tiers).result = .error e) ∨
        held = { prior with conf := (work prior.conf).state } ∧
          (call tiers).result = (work prior.conf).result.map fun _ => (work prior.conf).state) := by
  rcases Slot.refuses_or_selects tiers.instantiator tier tag (tiers.slot tier) with
    ⟨e, hrefuses⟩ | ⟨prior, hselects⟩
  · obtain ⟨events, hcall, -⟩ := h.of_refuses hrefuses
    rw [hcall] at hheld ⊢
    exact ⟨held, .inl hheld, .inl ⟨rfl, e, rfl⟩⟩
  · obtain ⟨events, hcall⟩ := h.of_selects hselects
    rw [hcall, slot_setSlot] at hheld
    rw [hcall]
    exact ⟨prior, presents_of_selects hstandard hselects,
      .inr ⟨(Option.some.inj hheld).symm, rfl⟩⟩

theorem slot_perform_feed {tiers : Tiers} (hstandard : tiers.instantiator = .standard)
    (feed : Feed) {held : Held} (h : (feed.call.perform tiers).state.slot feed.tier = some held) :
    ∃ prior, tiers.Presents feed.tier prior ∧
      (held = prior ∧ (∃ e, (feed.call.perform tiers).result = .error e) ∨
        held = { prior with conf := (CacheConf.configureAll feed.lists prior.conf).state } ∧
          ∀ e, (CacheConf.configureAll feed.lists prior.conf).result = .error e →
            (feed.call.perform tiers).result = .error e) := by
  obtain ⟨tier, aim, lists⟩ := feed
  cases aim with
  | type tag =>
    simp only [Feed.call, TierCall.perform, Act.bind_pure] at h ⊢
    obtain ⟨prior, hprior, ⟨hsame, e, hfails⟩ | ⟨hheld, hresult⟩⟩ :=
      (Requests.type tag (Change.configuring lists).mutator).slot_cases hstandard h
    · exact ⟨prior, hprior, .inl ⟨hsame, e, by rw [hfails]; rfl⟩⟩
    · refine ⟨prior, hprior, .inr ⟨hheld, fun e he => ?_⟩⟩
      rw [hresult]
      simp only [Change.configuring, he]
      rfl
  | settings cls =>
    simp only [Feed.call, TierCall.perform, Act.bind_pure] at h ⊢
    obtain ⟨prior, hprior, ⟨hsame, e, hfails⟩ | ⟨hheld, hresult⟩⟩ :=
      (Requests.settings cls (Change.configuring lists).mutator).slot_cases hstandard h
    · exact ⟨prior, hprior, .inl ⟨hsame, e, by rw [hfails]; rfl⟩⟩
    · rw [ConfClass.checked_apply] at hheld hresult
      by_cases hhas : cls.has prior.conf
      · rw [if_pos hhas] at hheld hresult
        refine ⟨prior, hprior, .inr ⟨hheld, fun e he => ?_⟩⟩
        rw [hresult]
        simp only [Change.configuring, he]
        rfl
      · rw [if_neg hhas] at hheld hresult
        exact ⟨prior, hprior, .inl ⟨hheld, _, by rw [hresult]; rfl⟩⟩
  | present =>
    simp only [Feed.call, TierCall.perform, Act.bind_pure, slot_mutate] at h ⊢
    obtain ⟨prior, hprior, hheld⟩ := Option.map_eq_some_iff.mp h
    refine ⟨prior, .inl hprior, .inr ⟨hheld.symm, fun e he => ?_⟩⟩
    rw [result_mutate _ hprior]
    simp only [Change.configuring, he]
    rfl

-- How a configuration came into the state it is in: a call in a row configured it, was rejected,
-- and left it as it is. No later call on the tier that would have configured it was accepted.
structure LeftByRejection (fresh : Tiers) (tier : CacheTier) (held : Held) (front : List Feed)
    (feed : Feed) (back : List Feed) : Prop where
  onTier : feed.tier = tier
  rejected : ∃ prior e, CacheConf.configureAll feed.lists prior =
      ⟨.error e, held.conf, (CacheConf.configureAll feed.lists prior).events⟩ ∧
    (feed.call.perform (fresh.fed front)).result = .error e
  left : (fresh.fed (front ++ [feed])).slot tier = some held
  since : ∀ mid late rest, back = mid ++ late :: rest → late.tier = tier → late.lists ≠ [] →
    ∃ e, (late.call.perform (fresh.fed (front ++ feed :: mid))).result = .error e

theorem LeftByRejection.last {fresh : Tiers} {front : List Feed} {feed : Feed} {prior held : Held}
    {e : Failure}
    (hmutated : held = { prior with conf := (CacheConf.configureAll feed.lists prior.conf).state })
    (hrun : (CacheConf.configureAll feed.lists prior.conf).result = .error e)
    (hfails : (feed.call.perform (fresh.fed front)).result = .error e)
    (hheld : (fresh.fed (front ++ [feed])).slot feed.tier = some held) :
    fresh.LeftByRejection feed.tier held front feed [] where
  onTier := rfl
  rejected := ⟨prior.conf, e, by rw [hmutated, ← hrun], hfails⟩
  left := hheld
  since := by
    intro mid late rest hnil
    cases mid <;> cases hnil

theorem LeftByRejection.concat {fresh : Tiers} {tier : CacheTier} {held : Held}
    {front back : List Feed} {feed last : Feed}
    (h : fresh.LeftByRejection tier held front feed back)
    (hlast : last.tier = tier → last.lists ≠ [] →
      ∃ e, (last.call.perform (fresh.fed (front ++ feed :: back))).result = .error e) :
    fresh.LeftByRejection tier held front feed (back ++ [last]) := by
  refine ⟨h.onTier, h.rejected, h.left, fun mid late rest hsplit => ?_⟩
  rcases List.eq_nil_or_concat rest with rfl | ⟨rest, x, rfl⟩
  · obtain ⟨rfl, hx⟩ := List.append_inj' hsplit rfl
    cases hx
    exact hlast
  · rw [List.concat_eq_append, ← List.cons_append, ← List.append_assoc] at hsplit
    exact h.since mid late rest (List.append_inj' hsplit rfl).1

-- The induction is on the row from its end. A call that is accepted leaves a safe address, one that
-- is rejected is what the row ends with, and all others leave the slot as it was.
theorem safe_or_left_by_rejection {fresh : Tiers} (hstandard : fresh.instantiator = .standard)
    (hfresh : ∀ {tier held}, fresh.slot tier = some held → held.conf.AddressSafe)
    (feeds : List Feed) {tier : CacheTier} {held : Held}
    (hheld : (fresh.fed feeds).slot tier = some held) :
    held.conf.AddressSafe ∨ ∃ front feed back, feeds = front ++ feed :: back ∧
      fresh.LeftByRejection tier held front feed back := by
  induction feeds using List.reverseRecOn generalizing held with
  | nil => exact .inl (hfresh hheld)
  | append_singleton feeds last ih =>
    -- what holds of the configuration before goes on to hold if the last call does not count
    have hold (hbefore : (fresh.fed feeds).slot tier = some held)
        (hlast : last.tier = tier → last.lists ≠ [] →
          ∃ e, (last.call.perform (fresh.fed feeds)).result = .error e) :
        held.conf.AddressSafe ∨ ∃ front feed back, feeds ++ [last] = front ++ feed :: back ∧
          fresh.LeftByRejection tier held front feed back := by
      rcases ih hbefore with hsafe | ⟨front, feed, back, rfl, hleft⟩
      · exact .inl hsafe
      · exact .inr ⟨front, feed, back ++ [last], by simp, hleft.concat hlast⟩
    have hcall := hheld
    rw [fed_concat] at hcall
    by_cases hon : last.tier = tier
    case neg =>
      rw [slot_perform_feed_of_ne hon] at hcall
      exact hold hcall fun h => absurd h hon
    subst hon
    have hinst : (fresh.fed feeds).instantiator = .standard :=
      (instantiator_after _ fresh).trans hstandard
    obtain ⟨prior, hprior, ⟨rfl, hfails⟩ | ⟨hmutated, hresult⟩⟩ :=
      slot_perform_feed hinst last hcall
    · rcases hprior with hbefore | hsafe
      · exact hold hbefore fun _ _ => hfails
      · exact .inl hsafe
    by_cases hlists : last.lists = []
    · have hsame : held = prior := by rw [hmutated, hlists]; rfl
      subst hsame
      rcases hprior with hbefore | hsafe
      · exact hold hbefore fun _ hne => absurd hlists hne
      · exact .inl hsafe
    cases hrun : (CacheConf.configureAll last.lists prior.conf).result with
    | ok =>
      refine .inl ?_
      rw [hmutated]
      exact CacheConf.addressSafe_of_check (CacheConf.check_of_configureAll hlists hrun)
    | error e => exact .inr ⟨feeds, last, [], rfl, .last hmutated hrun (hresult e hrun) hheld⟩

-- Every http configuration in a slot has a safe address in every run of fresh tiers, unless
-- configuring it was rejected: then it is as the rejected call left it, which stays so until
-- another call that configures it is accepted.
theorem addresses_in_every_run {σ : Type} (registry : Registry) (s : σ) :
    ∃ fresh, (start registry (some Instantiator.standard) s).result = .ok fresh ∧
      ∀ feeds tier held, (fresh.fed feeds).slot tier = some held →
        held.conf.AddressSafe ∨ ∃ front feed back, feeds = front ++ feed :: back ∧
          fresh.LeftByRejection tier held front feed back := by
  refine ⟨⟨.standard, registry, ⟨⟨true, true, .dir {}⟩, 0⟩, none⟩, rfl, ?_⟩
  intro feeds tier held
  refine safe_or_left_by_rejection rfl ?_ feeds
  intro tier held hheld http hsettings
  cases tier <;> cases hheld
  cases hsettings

-- An address without encryption is rejected, and is in the slot all the same.
theorem unsafe_address_after_rejection :
    ∃ fresh feed held,
      (start Registry.builtin (some Instantiator.standard) ()).result = .ok fresh ∧
      feed = ⟨.remote, .type .http, [[("url", "http://cache")]]⟩ ∧
      (feed.call.perform fresh).result = .error (.plain
        ("insecure protocol requires allow_insecure_protocol : " ++ "http://cache")) ∧
      (fresh.fed [feed]).slot .remote = some held ∧ ¬held.conf.AddressSafe := by
  refine ⟨_, _, ⟨⟨false, true, .http { url := "http://cache" }⟩, 0⟩, rfl, rfl, rfl, rfl, ?_⟩
  intro hsafe
  rcases hsafe _ rfl with h | h | ⟨-, h⟩
  · exact absurd h (by decide)
  · exact absurd h (by decide)
  · cases h

end Tiers

end Foreman
