import Foreman.Config.Session
import Foreman.Proofs.Cache.Filling
import Foreman.Proofs.Cache.Independence

namespace Foreman

-- An operation that runs again right after it ran comes to the same, changes nothing any more and
-- has nothing to say.
structure Act.Settled {σ α : Type} (act : Act σ α) (s : σ) : Prop where
  result : (act (act s).state).result = (act s).result
  state : (act (act s).state).state = (act s).state
  reports : (act (act s).state).reports = []

namespace Act.Settled

variable {σ α β : Type} {act : Act σ α} {s s' : σ} {result : Except Failure α} {events : List Event}

theorem run (h : act.Settled s) (hrun : act s = ⟨result, s', events⟩) :
    ∃ more, act s' = ⟨result, s', more⟩ ∧ more.filterMap Event.report? = [] := by
  obtain ⟨hresult, hstate, hreports⟩ := h
  rw [hrun] at hresult hstate hreports
  exact ⟨(act s').events, Outcome.eq_mk hresult hstate rfl, hreports⟩

theorem of_run {more : List Event} (hrun : act s = ⟨result, s', events⟩)
    (hagain : act s' = ⟨result, s', more⟩) (hreports : more.filterMap Event.report? = []) :
    act.Settled s := by
  refine ⟨?_, ?_, ?_⟩ <;> rw [hrun, hagain]
  exact hreports

theorem bind_pure (h : act.Settled s) (f : α → β) :
    (act >>= fun a => pure (f a) : Act σ β).Settled s := by
  have hrun := Act.bind_pure act f
  refine ⟨?_, ?_, ?_⟩
  · rw [hrun, hrun, h.result]
  · rw [hrun, hrun, h.state]
  · rw [hrun, hrun]
    exact h.reports

theorem within {channel : Channel} {tag : Text} {words : List Text} (h : act.Settled s) :
    (Act.within channel tag words act).Settled s := by
  have hreports : (act (act s).state).events.filterMap Event.report? = [] := h.reports
  refine ⟨h.result, h.state, ?_⟩
  change List.filterMap Event.report? (_ :: (act (act s).state).events ++ [_]) = []
  simp [List.filterMap_cons, Event.report?, hreports]

end Act.Settled

namespace CacheConf

theorem quiet_applyEntry (key value : Text) : (applyEntry key value).Quiet := by
  refine .bind .get fun conf => ?_
  cases conf.entry key value with
  | applied after => exact .modify _
  | badValue why => exact .bind (.note _) fun _ => .fail _
  | unknownKey => exact .bind (.note _) fun _ => .fail _

theorem quiet_configure (entries : List (Text × Text)) : (configure entries).Quiet := by
  have hall : (applyAll entries).Quiet :=
    .forM (fun e : Text × Text => quiet_applyEntry e.1 e.2) entries
  refine .bind .get fun _ => .within (.bind hall fun _ => .bind .get fun conf => ?_)
  cases conf.check with
  | ok => exact .pure ()
  | error why => exact .fail _

end CacheConf

namespace Config

-- A failure to fill a configuration, as it is told by the tier.
def blame (tier : CacheTier) : Failure → Failure
  | .plain why => cannotConfigure tier why
  | e => e

theorem fill_apply (tier : CacheTier) (request : CacheRequest) (conf : CacheConf) :
    (fill tier request conf).result =
        (CacheConf.configure request.entries conf).result.mapError (blame tier) ∧
      (fill tier request conf).state = (CacheConf.configure request.entries conf).state := by
  unfold fill Act.orElse
  cases CacheConf.configure request.entries conf with
  | mk result after events =>
    cases result with
    | ok => exact ⟨rfl, rfl⟩
    | error e => cases e <;> exact ⟨rfl, rfl⟩

theorem kind_fill (tier : CacheTier) (request : CacheRequest) (conf : CacheConf) :
    (fill tier request conf).state.kind = conf.kind := by
  rw [(fill_apply tier request conf).2]
  exact CacheConf.kind_configure request.entries conf

theorem fill_settled (tier : CacheTier) (request : CacheRequest) (conf : CacheConf) :
    (fill tier request).Settled conf := by
  obtain ⟨hresult, hstate⟩ := fill_apply tier request conf
  obtain ⟨hresult', hstate'⟩ := fill_apply tier request (fill tier request conf).state
  obtain ⟨hagain, hsame⟩ := CacheConf.configure_again request.entries conf
  refine ⟨?_, ?_, ?_⟩
  · rw [hresult', hstate, hagain, hresult]
  · rw [hstate', hstate, hsame]
  · have hquiet : (fill tier request).Quiet := by
      refine .orElse (CacheConf.quiet_configure request.entries) fun e => ?_
      cases e <;> exact .fail _
    exact hquiet _

end Config

namespace Slot

theorem configure_of_isA (inst : Instantiator) (tier : CacheTier) {tag : CacheTag} {held : Held}
    (mutator : Mutator) (h : held.conf.isA tag) :
    configure inst tier tag mutator (some held) =
      ⟨(mutator held.conf).result.map fun _ => { held with conf := (mutator held.conf).state },
        some { held with conf := (mutator held.conf).state },
        .opened .cache "configure" (some [tier.name, tag.name]) ::
          (mutator held.conf).events ++ [.closed]⟩ := by
  have hrequest : request inst tier tag (some held) = ⟨.ok held, some held, []⟩ :=
    request_of_isA h
  have hbody := Act.bind_of_ok hrequest fun held => mutate held mutator
  simp only [configure, Act.within, hbody, mutate, List.nil_append]

-- What was selected the first time is still there the second time, because a mutator never changes
-- the class.
theorem configure_settled {inst : Instantiator} {tier : CacheTier} {tag : CacheTag}
    {mutator : Mutator} (hkind : ∀ conf, (mutator conf).state.kind = conf.kind)
    (hmutator : ∀ conf, mutator.Settled conf) (slot : Slot) :
    (configure inst tier tag mutator).Settled slot := by
  rcases refuses_or_selects inst tier tag slot with ⟨e, hrefuses⟩ | ⟨held, hselects⟩
  · obtain ⟨events, hrun, hreports⟩ := configure_of_refuses tier mutator hrefuses
    have hstate : (configure inst tier tag mutator slot).state = slot := by rw [hrun]
    refine ⟨?_, ?_, ?_⟩
    · rw [hstate]
    · rw [hstate, hstate]
    · rw [hstate, hrun]
      exact hreports
  · obtain ⟨events, hrun⟩ := configure_of_selects mutator hselects
    have hstate : (configure inst tier tag mutator slot).state =
        some { held with conf := (mutator held.conf).state } := by rw [hrun]
    have hisA : ({ held with conf := (mutator held.conf).state } : Held).conf.isA tag := by
      rw [CacheConf.isA_eq_of_kind_eq (hkind held.conf)]
      exact hselects.isA
    have hagain := configure_of_isA inst tier mutator hisA
    have hsettled := hmutator held.conf
    refine ⟨?_, ?_, ?_⟩
    · rw [hstate, hagain, hrun, hsettled.state, hsettled.result]
    · rw [hstate, hagain, hsettled.state]
    · have hreports : ((mutator (mutator held.conf).state).events).filterMap Event.report? = [] :=
        hsettled.reports
      rw [hstate, hagain]
      simp [Outcome.reports, List.filterMap_cons, Event.report?, hreports]

end Slot

namespace Tiers

theorem setSlot_again (tiers : Tiers) (tier : CacheTier) (slot : Slot) :
    (tiers.setSlot tier slot).setSlot tier slot = tiers.setSlot tier slot := by
  cases tier <;> cases slot <;> rfl

theorem slot_setSlot_configure (tiers : Tiers) (tier : CacheTier) (tag : CacheTag)
    (mutator : Mutator) :
    (tiers.setSlot tier
      (Slot.configure tiers.instantiator tier tag mutator (tiers.slot tier)).state).slot tier =
      (Slot.configure tiers.instantiator tier tag mutator (tiers.slot tier)).state := by
  rcases Slot.refuses_or_selects tiers.instantiator tier tag (tiers.slot tier) with
    ⟨e, hrefuses⟩ | ⟨held, hselects⟩
  · obtain ⟨events, hrun, -⟩ := Slot.configure_of_refuses tier mutator hrefuses
    rw [hrun]
    exact congrArg (fun s : Tiers => s.slot tier) (setSlot_slot tiers tier)
  · obtain ⟨events, hrun⟩ := Slot.configure_of_selects mutator hselects
    rw [hrun]
    exact slot_setSlot tiers tier _

theorem configure_settled {tier : CacheTier} {tag : CacheTag} {mutator : Mutator}
    (hkind : ∀ conf, (mutator conf).state.kind = conf.kind)
    (hmutator : ∀ conf, mutator.Settled conf) (tiers : Tiers) :
    (configure tier tag mutator).Settled tiers := by
  have hsettled : (Slot.configure tiers.instantiator tier tag mutator).Settled (tiers.slot tier) :=
    Slot.configure_settled hkind hmutator (tiers.slot tier)
  have hfirst := configure_apply tiers tier tag mutator
  have hsecond := configure_apply (configure tier tag mutator tiers).state tier tag mutator
  simp only [hfirst, instantiator_setSlot, slot_setSlot_configure] at hsecond
  refine ⟨?_, ?_, ?_⟩
  · rw [hfirst, hsecond, hsettled.result]
  · rw [hfirst, hsecond, hsettled.state]
    exact setSlot_again tiers tier _
  · rw [hfirst, hsecond]
    exact hsettled.reports

-- Operations on different tiers do not get in each other's way: the first one finds its own slot as
-- it left it, whatever the second one did in between.
theorem settled_of_confined {tier : CacheTier} {first second : Act Tiers Unit}
    (hfirst : ∀ s, first.Settled s) (hsecond : ∀ s, second.Settled s)
    (hconfined : Confined tier first) (hother : Confined tier.other second) (s : Tiers) :
    (first >>= fun _ => second).Settled s := by
  cases hone : first s with
  | mk result s' events =>
    obtain ⟨more, hagain, hreports⟩ := (hfirst s).run hone
    cases result with
    | error e => exact .of_run (Act.bind_of_error hone _) (Act.bind_of_error hagain _) hreports
    | ok =>
      cases htwo : second s' with
      | mk result s'' events' =>
        obtain ⟨more', hagain', hreports'⟩ := (hsecond s').run htwo
        -- What the second operation left is no different for the first one.
        have hframe : Agree tier s'' s' := by
          have hframe := hother.frame s'
          rwa [htwo, CacheTier.other_other] at hframe
        have halike := hconfined.alike hframe
        rw [hagain] at halike
        have hstate : (first s'').state = s'' :=
          Agree.eq (halike.state.trans hframe.symm) (hconfined.frame s'')
        have hone' : first s'' = ⟨.ok (), s'', more⟩ :=
          Outcome.eq_mk halike.result hstate halike.events
        have hrun := Act.bind_of_ok hone fun _ => second
        have hrun' := Act.bind_of_ok hone' fun _ => second
        rw [htwo] at hrun
        rw [hagain'] at hrun'
        refine .of_run hrun hrun' ?_
        rw [List.filterMap_append, hreports, hreports']
        rfl

end Tiers

namespace Config

theorem confined_configureTier (tier : CacheTier) (request : Option CacheRequest) :
    Tiers.Confined tier (configureTier tier request) := by
  cases request with
  | none => exact .pure tier ()
  | some request =>
    exact .bind (.configure tier request.tag _) fun _ => .pure tier ()

theorem configureTier_settled (tier : CacheTier) (request : Option CacheRequest) (tiers : Tiers) :
    (configureTier tier request).Settled tiers := by
  cases request with
  | none => exact ⟨rfl, rfl, rfl⟩
  | some request =>
    have hsettled : (Tiers.configure tier request.tag (fill tier request)).Settled tiers :=
      Tiers.configure_settled (kind_fill tier request) (fill_settled tier request) tiers
    exact hsettled.bind_pure fun _ => ()

-- Whatever a configuration came to, it comes to the same when it is put into effect once more. Both
-- slots keep what they hold by then, and nothing is replaced.
theorem configure_twice (config : Config) (tiers : Tiers) :
    let first := config.configure tiers
    let second := config.configure first.state
    second.result = first.result ∧ second.state = first.state ∧ second.reports = [] := by
  have hsettled : config.configure.Settled tiers :=
    .within (Tiers.settled_of_confined (configureTier_settled .local config.localCache)
      (configureTier_settled .remote config.remoteCache)
      (confined_configureTier .local config.localCache)
      (confined_configureTier .remote config.remoteCache) tiers)
  exact ⟨hsettled.result, hsettled.state, hsettled.reports⟩

end Config

end Foreman
