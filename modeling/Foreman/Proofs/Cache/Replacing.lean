import Foreman.Proofs.Cache.Calls

namespace Foreman

namespace Slot

-- A configuration has entered a slot: the one that is there now has a number of its own.
def Renewed (before after : Slot) : Prop :=
  ∃ held, after = some held ∧ ∀ old, before = some old → held.serial ≠ old.serial

theorem not_renewed_self (slot : Slot) : ¬slot.Renewed slot :=
  fun ⟨held, hslot, hnew⟩ => hnew held hslot rfl

theorem not_renewed_with (held : Held) (conf : CacheConf) :
    ¬Renewed (some held) (some { held with conf }) := by
  rintro ⟨_, ⟨⟩, hnew⟩
  exact hnew held rfl rfl

theorem renewed_admitted (slot : Slot) (tier : CacheTier) (made conf : CacheConf) :
    slot.Renewed (some { slot.admitted tier made with conf }) := by
  refine ⟨_, rfl, ?_⟩
  rintro old rfl
  exact Nat.succ_ne_self old.serial

theorem reports_configure_empty (inst : Instantiator) (tier : CacheTier) (tag : CacheTag) :
    (configure inst tier tag (pure ()) none).reports = [] := by
  rcases refuses_or_selects inst tier tag none with ⟨e, hrefuses⟩ | ⟨held, hselects⟩
  · obtain ⟨events, hconfigure, hreports⟩ := configure_of_refuses tier (pure ()) hrefuses
    rw [hconfigure]
    exact hreports
  · cases hselects with
    | kept hslot => cases hslot
    | fresh hserves hmake hisA =>
      obtain ⟨events, hrequest, hnotices⟩ := @request_of_fresh _ tier _ _ _ hserves hmake hisA
      obtain ⟨more, hconfigure, hreports⟩ := configure_of_request (pure ()) hrequest
      rw [hconfigure]
      rw [hnotices] at hreports
      exact hreports

end Slot

namespace Tiers

def content (tiers : Tiers) (tier : CacheTier) : Option CacheConf :=
  (tiers.slot tier).map Held.conf

def Renews (tiers : Tiers) (tier : CacheTier) (call : Act Tiers CacheConf) : Prop :=
  (tiers.slot tier).Renewed ((call tiers).state.slot tier)

variable {tiers : Tiers} {tier : CacheTier} {tag : CacheTag} {work : Mutator}
  {call : Act Tiers CacheConf}

theorem Requests.cases (h : Requests tier tag work call) (tiers : Tiers) :
    (¬tiers.Renews tier call ∧ ((call tiers).reports = [] ∨
      ∃ held, tiers.slot tier = some held ∧ (call tiers).reports = (work held.conf).reports)) ∨
    (tiers.Renews tier call ∧ ∃ made seen, tiers.instantiator tag = .ok (some made) ∧
      seen = { made with push := tier.pushesByDefault } ∧
      (call tiers).state.content tier = some (work seen).state ∧
      (call tiers).reports = (tiers.slot tier).notices tier made.tag ++ (work seen).reports) := by
  rcases Slot.refuses_or_selects tiers.instantiator tier tag (tiers.slot tier) with
    ⟨e, hrefuses⟩ | ⟨held, hselects⟩
  · obtain ⟨events, hcall, hreports⟩ := h.of_refuses hrefuses
    rw [Renews, hcall]
    exact .inl ⟨Slot.not_renewed_self _, .inl hreports⟩
  cases hselects with
  | kept hslot hisA =>
    have hrequest := @Slot.request_of_isA tiers.instantiator tier tag held hisA
    rw [← hslot] at hrequest
    obtain ⟨events, hcall, hreports⟩ := h.of_request hrequest
    rw [Renews, hcall, slot_setSlot, hslot]
    exact .inl ⟨Slot.not_renewed_with held _, .inr ⟨held, rfl, hreports⟩⟩
  | @fresh made hserves hmake hisA =>
    obtain ⟨events, hrequest, hnotices⟩ :=
      @Slot.request_of_fresh _ tier _ _ made hserves hmake hisA
    obtain ⟨more, hcall, hreports⟩ := h.of_request hrequest
    rw [Renews, hcall, content, slot_setSlot]
    exact .inr ⟨Slot.renewed_admitted _ tier made _, made, _, hmake, rfl, rfl, hnotices ▸ hreports⟩

theorem reports_start {σ : Type} (registry : Registry) (inst : Instantiator) (s : σ) :
    (start registry (some inst) s).reports = [] := by
  have hquiet := Slot.reports_configure_empty inst .local .dir
  rw [start, Act.bind_pure _ (fun x : Held × Slot => (⟨inst, registry, x.1, none⟩ : Tiers))]
  exact hquiet

theorem content_of_start {σ : Type} {registry : Registry} {inst : Instantiator} {s : σ}
    {fresh : Tiers} (h : (start registry (some inst) s).result = .ok fresh) :
    ∃ made, inst .dir = .ok (some made) ∧
      fresh.content .local = some { made with push := true } := by
  obtain ⟨_, held, ⟨⟩, hselects, rfl⟩ := start_eq_ok h
  cases hselects with
  | kept hslot => cases hslot
  | @fresh made _ hmake _ => exact ⟨made, hmake, rfl⟩

-- A call that puts a fresh configuration into the slot of its tier leaves what its mutator makes of
-- the one that was made for it, with the default of the tier for what is pushed. What was in the slot
-- does not go into that: other tiers with the same instantiator that are renewed by the call end with
-- the same. One message tells which type took the place of which, if there was one. A call that finds
-- what it asks for says no more than its mutator does, and the first configuration of fresh tiers
-- comes into its slot in the same way.
theorem replacement_in_every_call (h : Requests tier tag work call) (tiers : Tiers) :
    (tiers.Renews tier call → ∃ made seen, tiers.instantiator tag = .ok (some made) ∧
      seen = { made with push := tier.pushesByDefault } ∧
      (call tiers).state.content tier = some (work seen).state ∧
      (call tiers).reports = (tiers.slot tier).notices tier made.tag ++ (work seen).reports) ∧
    (¬tiers.Renews tier call → (call tiers).reports = [] ∨
      ∃ held, tiers.slot tier = some held ∧ (call tiers).reports = (work held.conf).reports) ∧
    (∀ other : Tiers, other.instantiator = tiers.instantiator → tiers.Renews tier call →
      other.Renews tier call →
      (call other).state.content tier = (call tiers).state.content tier) ∧
    (∀ registry fresh, (start registry (some tiers.instantiator) ()).result = .ok fresh →
      (∃ made, tiers.instantiator .dir = .ok (some made) ∧
        fresh.content .local = some { made with push := true }) ∧
      (start registry (some tiers.instantiator) ()).reports = []) := by
  have hrenewed (tiers : Tiers) (hnew : tiers.Renews tier call) :=
    ((h.cases tiers).resolve_left fun hsame => hsame.1 hnew).2
  refine ⟨hrenewed tiers, fun hsame => ?_, fun other hinst hnew hnew' => ?_,
    fun registry fresh hstart => ⟨content_of_start hstart, reports_start registry _ ()⟩⟩
  · exact ((h.cases tiers).resolve_right fun hnew => hsame hnew.1).2
  · obtain ⟨made, seen, hmade, rfl, hleft, -⟩ := hrenewed tiers hnew
    obtain ⟨made', seen', hmade', rfl, hleft', -⟩ := hrenewed other hnew'
    rw [hinst, hmade] at hmade'
    cases hmade'
    rw [hleft, hleft']

-- A directory in the remote slot and a service in that of other tiers make way for the http
-- configuration that is made for any remote cache. It was made to be pushed to, and is not.
theorem replacement_by_http :
    ∃ tiers other : Tiers, ∃ call : Act Tiers CacheConf,
      call = configure .remote .remote (CacheConf.configure [("user", "me")]) ∧
      tiers.content .remote = some { push := true, settings := .dir { maxSize := 7 } } ∧
      tiers.instantiator .remote = .ok (some { push := true, settings := .http {} }) ∧
      tiers.Renews .remote call ∧
      (call tiers).state.content .remote = some { settings := .http { user := "me" } } ∧
      (call tiers).reports =
        [(LogLevel.info, ("replacing remote build cache type dir with http" : Text))] ∧
      other.content .remote = some { settings := .sharedDir {} "dev" } ∧
      (call other).state.content .remote = some { settings := .http { user := "me" } } := by
  let inst : Instantiator := fun _ => .ok (some { push := true, settings := .http {} })
  let tiers : Tiers := ⟨inst, Registry.builtin, ⟨{ settings := .dir {} }, 0⟩,
    some ⟨{ push := true, settings := .dir { maxSize := 7 } }, 3⟩⟩
  let other : Tiers := ⟨inst, [], ⟨{ settings := .dir {} }, 0⟩,
    some ⟨{ settings := .sharedDir {} "dev" }, 0⟩⟩
  obtain ⟨hleft, -, halike, -⟩ := replacement_in_every_call
    (.type .remote (CacheConf.configure [("user", "me")]) : Requests .remote .remote _ _) tiers
  have hnew : tiers.Renews .remote
      (configure .remote .remote (CacheConf.configure [("user", "me")])) :=
    Slot.renewed_admitted _ .remote _ _
  have hnew' : other.Renews .remote
      (configure .remote .remote (CacheConf.configure [("user", "me")])) :=
    Slot.renewed_admitted _ .remote _ _
  obtain ⟨made, seen, ⟨⟩, rfl, hcontent, hreports⟩ := hleft hnew
  refine ⟨tiers, other, _, rfl, rfl, rfl, hnew, hcontent, hreports.trans ?_, rfl,
    (halike other rfl hnew hnew').trans hcontent⟩
  decide

end Tiers

end Foreman
