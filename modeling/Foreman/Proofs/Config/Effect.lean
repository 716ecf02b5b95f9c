import Foreman.Proofs.Config.Reordering
import Foreman.Proofs.Config.Repetition

namespace Foreman

open Script (Entries Value Access)

-- A configuration as a dictionary asks for it: the fields that the dictionary is silent about are
-- as in a fresh configuration, where the tier decides about storing.
structure CacheConf.SetBy (conf : CacheConf) (tier : CacheTier) (dict : Entries) : Prop where
  tag : ∃ name, dict.find? "tag" = some (.str name) ∧ Enumeration.ofName name = .ok conf.tag
  keys : ∀ e ∈ dict, e.1 = .str "tag" ∨ ∃ field, e.1 = .str field.key ∧ (conf.get field).isSome
  silent : ∃ fresh, make conf.tag = .ok fresh ∧ ∀ field, dict.find? field.key = none →
    conf.get field = get { fresh with push := decide (tier = .local) } field
  given : ∀ field value, dict.find? field.key = some value →
    ∃ setting, field.read value.settingText = .ok setting ∧ conf.get field = some setting

theorem CacheRequest.AskedBy.make {request : CacheRequest} {dict : Entries}
    (h : request.AskedBy dict) :
    ∃ fresh, CacheConf.make request.tag = .ok fresh ∧ fresh.tag = request.tag := by
  obtain ⟨hnone, hany, hremote⟩ := h.concrete
  cases htag : request.tag with
  | none => exact absurd htag hnone
  | any => exact absurd htag hany
  | remote => exact absurd htag hremote
  | dir | sharedDir | http | daemon => exact ⟨_, rfl, rfl⟩

theorem CacheRequest.AskedBy.setBy {request : CacheRequest} {dict : Entries} {tier : CacheTier}
    {fresh start : CacheConf} (h : request.AskedBy dict) (hkeys : dict.Distinct)
    (hfresh : CacheConf.make request.tag = .ok fresh) (htag : fresh.tag = request.tag)
    (hstart : start = { fresh with push := decide (tier = .local) })
    (hok : (CacheConf.configure request.entries start).result = .ok ()) :
    (CacheConf.configure request.entries start).state.SetBy tier dict := by
  have hkind := CacheConf.kind_configure request.entries start
  have hget := CacheConf.get_of_configure (h.distinct hkeys) hok
  have hlookup (field : Field) := h.lookup field.key_ne_tag
  have haccepted := CacheConf.accepted_of_configure hok
  have hsame : (CacheConf.configure request.entries start).state.tag = request.tag := by
    rw [CacheConf.tag_eq_of_kind_eq hkind, hstart, ← htag]
    rfl
  refine ⟨?tag, ?keys, ?silent, ?given⟩
  case tag =>
    obtain ⟨value, hvalue, hname⟩ := h.tag
    obtain ⟨name, htext, hofName⟩ := bind_eq_ok_iff.mp hname
    cases Access.text_eq_ok_iff.mp htext
    exact ⟨name, hvalue, by rw [hsame, hofName]⟩
  case keys =>
    intro e he
    obtain ⟨name, hname⟩ := h.names e he
    by_cases hnameTag : name = "tag"
    · exact .inl (hname.trans (congrArg Value.str hnameTag))
    · have hmem : (.str name, e.2) ∈ dict := by rwa [← hname]
      rcases CacheConf.key_of_accepted (haccepted _ (h.mem_entries hmem hnameTag)) with
        hkey | ⟨field, hfield, hkey⟩
      · exact absurd hkey hnameTag
      · refine .inr ⟨field, hname.trans (congrArg Value.str hkey), ?_⟩
        rwa [CacheConf.isSome_get_iff, CacheConf.fields_eq_of_kind_eq hkind]
  case silent =>
    refine ⟨fresh, by rw [hsame, hfresh], fun field hnone => ?_⟩
    rw [hget, hlookup, hnone, hstart]
    rfl
  case given =>
    intro field value hvalue
    have hmem := h.mem_entries (Entries.mem_of_find? hvalue) field.key_ne_tag
    obtain ⟨-, setting, hread, -⟩ := CacheConf.accepted_of_key (haccepted _ hmem)
    refine ⟨setting, hread, ?_⟩
    rw [hget, hlookup, hvalue, Option.map_some, Option.bind_some, hread]
    rfl

namespace Config

theorem configureTier_ok_iff {tier : CacheTier} {request : CacheRequest} {s s' : Tiers} :
    (configureTier tier (some request)).Yields s (.ok ()) s' ↔
      ∃ held, Slot.Selects s.instantiator tier request.tag (s.slot tier) held ∧
        (CacheConf.configure request.entries held.conf).result = .ok () ∧
        s' = s.setSlot tier
          (some { held with conf := (CacheConf.configure request.entries held.conf).state }) := by
  have hrun : configureTier tier (some request) s = _ :=
    Act.bind_pure (Tiers.configure tier request.tag (fill tier request)) (fun _ => ()) s
  constructor
  · rintro ⟨hresult, hstate⟩
    rw [hrun] at hresult hstate
    rcases Slot.refuses_or_selects s.instantiator tier request.tag (s.slot tier) with
      ⟨e, hrefuses⟩ | ⟨held, hselects⟩
    · obtain ⟨events, hconfigure, -⟩ := Tiers.configure_of_refuses (fill tier request) hrefuses
      rw [hconfigure] at hresult
      cases hresult
    · obtain ⟨events, hconfigure⟩ := Tiers.configure_of_selects (fill tier request) hselects
      obtain ⟨hfill, hleft⟩ := fill_apply tier request held.conf
      rw [hconfigure, hfill] at hresult
      rw [hconfigure, hleft] at hstate
      refine ⟨held, hselects, ?_, hstate.symm⟩
      cases hentries : (CacheConf.configure request.entries held.conf).result with
      | ok => rfl
      | error e =>
        rw [hentries] at hresult
        cases hresult
  · rintro ⟨held, hselects, hentries, rfl⟩
    obtain ⟨events, hconfigure⟩ := Tiers.configure_of_selects (fill tier request) hselects
    obtain ⟨hfill, hleft⟩ := fill_apply tier request held.conf
    rw [hconfigure, hfill, hleft, hentries] at hrun
    rw [Act.Yields, hrun]
    exact ⟨rfl, rfl⟩

theorem configureTier_shuffled {tier : CacheTier} {request request' : Option CacheRequest}
    {s s' : Tiers} (hrequest : Option.Rel CacheRequest.Shuffled request request')
    (h : (configureTier tier request).Yields s (.ok ()) s') :
    (configureTier tier request').Yields s (.ok ()) s' := by
  cases hrequest with
  | none => exact h
  | some hshuffled =>
    obtain ⟨htag, hdistinct, hperm⟩ := hshuffled
    obtain ⟨held, hselects, hresult, rfl⟩ := configureTier_ok_iff.mp h
    obtain ⟨hsame, hstate⟩ :=
      CacheConf.configure_perm hdistinct hperm (CacheConf.accepted_of_configure hresult)
    refine configureTier_ok_iff.mpr ⟨held, ?_, hsame.trans hresult, ?_⟩
    · rwa [htag]
    · rw [hstate]

theorem configure_yields_iff {config : Config} {s s' : Tiers} :
    config.configure.Yields s (.ok ()) s' ↔
      ∃ between, (configureTier .local (config.request .local)).Yields s (.ok ()) between ∧
        (configureTier .remote (config.request .remote)).Yields between (.ok ()) s' := by
  constructor
  · intro h
    obtain ⟨⟨⟩, between, hlocal, hremote⟩ := h.of_within.of_bind
    exact ⟨between, hlocal, hremote⟩
  · rintro ⟨between, hlocal, hremote⟩
    exact (hlocal.bind hremote).within

theorem slot_configure {config : Config} {s s' : Tiers}
    (h : config.configure.Yields s (.ok ()) s') (tier : CacheTier) :
    ∃ after, (configureTier tier (config.request tier)).Yields s (.ok ()) after ∧
      s'.slot tier = after.slot tier := by
  obtain ⟨between, hlocal, hremote⟩ := configure_yields_iff.mp h
  cases tier with
  | «local» =>
    have hframe := (confined_configureTier .remote (config.request .remote)).frame between
    rw [hremote.2] at hframe
    exact ⟨between, hlocal, hframe.slot⟩
  | remote =>
    have hframe := (confined_configureTier .local (config.request .local)).frame s
    rw [hlocal.2] at hframe
    have halike := (confined_configureTier .remote (config.request .remote)).alike hframe
    refine ⟨_, ⟨?_, rfl⟩, ?_⟩
    · rw [← halike.result, hremote.1]
    · rw [← hremote.2]
      exact halike.state.slot

theorem configure_shuffled {config config' : Config} {s s' : Tiers}
    (hrequests : ∀ tier,
      Option.Rel CacheRequest.Shuffled (config.request tier) (config'.request tier))
    (h : config.configure.Yields s (.ok ()) s') : config'.configure.Yields s (.ok ()) s' := by
  obtain ⟨between, hlocal, hremote⟩ := configure_yields_iff.mp h
  exact configure_yields_iff.mpr ⟨between, configureTier_shuffled (hrequests .local) hlocal,
    configureTier_shuffled (hrequests .remote) hremote⟩

end Config

namespace Tiers

variable {registry : Registry} {σ : Type} {s : σ} {fresh : Tiers}

theorem start_standard_eq_ok (h : (start registry (some .standard) s).result = .ok fresh) :
    fresh = ⟨.standard, registry, ⟨{ push := true, settings := .dir {} }, 0⟩, none⟩ := by
  cases h
  rfl

-- What serves a request on fresh tiers is a fresh configuration, also where it is there already.
theorem conf_of_selects (h : (start registry (some .standard) s).result = .ok fresh)
    {tier : CacheTier} {tag : CacheTag} {conf : CacheConf} (hmake : CacheConf.make tag = .ok conf)
    {held : Held} (hselects : Slot.Selects fresh.instantiator tier tag (fresh.slot tier) held) :
    held.conf = { conf with push := decide (tier = .local) } := by
  rw [start_standard_eq_ok h] at hselects
  cases hselects with
  | kept hslot hisA =>
    cases tier with
    | «local» =>
      cases hslot
      -- The directory that fresh tiers hold serves itself and the root, which no request is for.
      cases tag with
      | dir =>
        cases hmake
        rfl
      | none | any | remote => cases hmake
      | sharedDir | http | daemon => exact (Bool.false_ne_true hisA).elim
    | remote => cases hslot
  | @fresh made hserves hmade hisA =>
    have hsame : (CacheConf.make tag).map some = .ok (some made) := hmade
    rw [hmake] at hsame
    cases hsame
    cases tier <;> rfl

end Tiers

namespace Config

-- Each tier that is given holds a configuration of the type that is named, with the defaults of
-- this type but for the entries that are given. A tier that is not given is left alone. Neither the
-- order of the tiers nor that of the entries has any influence.
theorem tiers_of_globals {globals : Entries} {config : Config} {registry : Registry} {σ : Type}
    {s : σ} {fresh : Tiers} (hproper : (Value.dict globals).Proper)
    (hconfig : ofGlobals globals = .ok config)
    (hfresh : (Tiers.start registry (some .standard) s).result = .ok fresh)
    (hok : (config.configure fresh).result = .ok ()) :
    (∀ tier value, given? globals tier = some value → ∃ (dict : Entries) (held : Held),
      value = .dict dict ∧ (config.configure fresh).state.slot tier = some held ∧
        held.conf.SetBy tier dict) ∧
    (∀ tier, given? globals tier = none →
      (config.configure fresh).state.slot tier = fresh.slot tier) ∧
    ∀ globals', Reordered globals globals' → ∃ config', ofGlobals globals' = .ok config' ∧
      (config'.configure fresh).result = .ok () ∧
      (config'.configure fresh).state = (config.configure fresh).state := by
  have hyields : config.configure.Yields fresh (.ok ()) (config.configure fresh).state := ⟨hok, rfl⟩
  refine ⟨fun tier value hvalue => ?given, fun tier hnone => ?absent, fun globals' h => ?reordered⟩
  case given =>
    obtain ⟨dict, request, rfl, hkeys, hasked, hrequest⟩ :=
      (request_of_ofGlobals hproper hconfig tier).2 value hvalue
    obtain ⟨after, htier, hslot⟩ := slot_configure hyields tier
    rw [hrequest] at htier
    obtain ⟨held, hselects, hentries, rfl⟩ := configureTier_ok_iff.mp htier
    obtain ⟨conf, hmake, htag⟩ := hasked.make
    have hconf := Tiers.conf_of_selects hfresh hmake hselects
    exact ⟨dict, _, rfl, hslot.trans (Tiers.slot_setSlot _ _ _),
      hasked.setBy hkeys hmake htag hconf hentries⟩
  case absent =>
    obtain ⟨after, htier, hslot⟩ := slot_configure hyields tier
    rw [(request_of_ofGlobals hproper hconfig tier).1 hnone] at htier
    rw [hslot, ← htier.2]
    rfl
  case reordered =>
    obtain ⟨config', hconfig', hrequests⟩ := ofGlobals_reordered hproper h hconfig
    have hyields' := configure_shuffled hrequests hyields
    exact ⟨config', hconfig', hyields'.1, hyields'.2⟩

-- A remote cache that is stored to, given with its tag at the end.
theorem tiers_of_remote_globals :
    ∃ held, (configure { remoteCache := some ⟨.http, [("push", "true")]⟩ }
        ⟨.standard, .builtin, ⟨{ push := true, settings := .dir {} }, 0⟩, none⟩).state.slot
          .remote = some held ∧
      held.conf.SetBy .remote [(.str "push", .bool true), (.str "tag", .str "http")] := by
  have hkeys : Entries.Distinct [(.str "push", .bool true), (.str "tag", .str "http")] := by
    have hne : Value.str "push" ≠ .str "tag" := fun h => absurd (Value.str.inj h) (by decide)
    exact List.pairwise_pair.mpr hne
  have htier : (Value.dict [(.str "push", .bool true), (.str "tag", .str "http")]).Proper := by
    refine .dict hkeys ?_ ?_
    · exact List.forall_mem_cons.mpr ⟨.str _, List.forall_mem_singleton.mpr (.str _)⟩
    · exact List.forall_mem_cons.mpr ⟨.bool _, List.forall_mem_singleton.mpr (.str _)⟩
  have hproper : (Value.dict [(.str "caches", .dict [(.str "remote",
      .dict [(.str "push", .bool true), (.str "tag", .str "http")])])]).Proper := by
    refine .dict (List.pairwise_singleton _ _) (List.forall_mem_singleton.mpr (.str _))
      (List.forall_mem_singleton.mpr ?_)
    exact .dict (List.pairwise_singleton _ _) (List.forall_mem_singleton.mpr (.str _))
      (List.forall_mem_singleton.mpr htier)
  have hconfig : ofGlobals [(.str "caches", .dict [(.str "remote",
      .dict [(.str "push", .bool true), (.str "tag", .str "http")])])] =
        .ok { remoteCache := some ⟨.http, [("push", "true")]⟩ } := rfl
  have hfresh : (Tiers.start .builtin (some .standard) ()).result =
      .ok ⟨.standard, .builtin, ⟨{ push := true, settings := .dir {} }, 0⟩, none⟩ := rfl
  obtain ⟨hgiven, -, -⟩ := tiers_of_globals hproper hconfig hfresh rfl
  obtain ⟨dict, held, hdict, hslot, hset⟩ := hgiven .remote _ rfl
  cases hdict
  exact ⟨held, hslot, hset⟩

end Config

end Foreman
