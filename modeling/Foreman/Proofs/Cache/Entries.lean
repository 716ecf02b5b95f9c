import Foreman.Cache.Conf
import Foreman.Proofs.Cache.Calls

namespace Foreman.CacheConf

def configureAll (lists : List (List (Text × Text))) : Act CacheConf Unit :=
  lists.forM configure

variable {conf after : CacheConf} {key value : Text}

theorem eq_of_setFlag {set : Bool → CacheConf} (h : setFlag value set = .applied after) :
    ∃ flag, after = set flag := by
  unfold setFlag at h
  split at h
  · exact ⟨_, (EntryOutcome.applied.inj h).symm⟩
  · cases h

theorem settings_of_commonEntry (h : commonEntry conf key value = .applied after) :
    after.settings = conf.settings := by
  unfold commonEntry at h
  split at h
  · obtain ⟨flag, rfl⟩ := eq_of_setFlag h
    rfl
  split at h
  · obtain ⟨flag, rfl⟩ := eq_of_setFlag h
    rfl
  split at h
  · split at h
    · cases h
    · split at h
      · cases h
        rfl
      · cases h
  · cases h

theorem kind_of_commonEntry (h : commonEntry conf key value = .applied after) :
    after.kind = conf.kind :=
  congrArg CacheSettings.blank (settings_of_commonEntry h)

theorem kind_of_dirEntry {dir : DirSettings} {set : DirSettings → CacheSettings}
    (hset : ∀ dir, (set dir).blank = conf.kind)
    (h : dirEntry conf dir set key value = .applied after) : after.kind = conf.kind := by
  unfold dirEntry at h
  split at h
  · cases h
    exact hset _
  split at h
  · split at h
    · cases h
      exact hset _
    · cases h
  · exact kind_of_commonEntry h

theorem kind_of_httpEntry {http : HttpSettings} (hsettings : conf.settings = .http http)
    (h : httpEntry conf http key value = .applied after) : after.kind = conf.kind := by
  have hkind : conf.kind = .http {} := by rw [kind, hsettings]; rfl
  rw [hkind]
  unfold httpEntry at h
  split at h
  · obtain ⟨flag, rfl⟩ := eq_of_setFlag h
    rfl
  split at h
  · obtain ⟨flag, rfl⟩ := eq_of_setFlag h
    rfl
  split at h
  · cases h
    rfl
  split at h
  · cases h
    rfl
  split at h
  · cases h
    rfl
  · exact (kind_of_commonEntry h).trans hkind

theorem kind_of_entry (h : conf.entry key value = .applied after) : after.kind = conf.kind := by
  unfold entry at h
  split at h
  case h_1 dir hsettings =>
    exact kind_of_dirEntry (fun _ => by rw [kind, hsettings]; rfl) h
  case h_2 dir group hsettings =>
    split at h
    · cases h
      rw [kind, kind, hsettings]
      rfl
    · exact kind_of_dirEntry (fun _ => by rw [kind, hsettings]; rfl) h
  case h_3 http hsettings => exact kind_of_httpEntry hsettings h
  case h_4 service hsettings =>
    split at h
    · cases h
      rw [kind, kind, hsettings]
      rfl
    · exact kind_of_commonEntry h
  case h_5 => exact kind_of_commonEntry h

theorem applyEntry_of_applied (h : conf.entry key value = .applied after) :
    applyEntry key value conf = ⟨.ok (), after, []⟩ := by
  unfold applyEntry
  rw [Act.get_bind, h]
  rfl

theorem state_applyEntry (key value : Text) (conf : CacheConf) :
    (applyEntry key value conf).state = conf ∨
      conf.entry key value = .applied (applyEntry key value conf).state := by
  unfold applyEntry
  rw [Act.get_bind]
  cases hentry : conf.entry key value with
  | applied after => exact .inr rfl
  | unknownKey => exact .inl rfl
  | badValue why => exact .inl rfl

theorem kind_applyEntry (key value : Text) (conf : CacheConf) :
    (applyEntry key value conf).state.kind = conf.kind := by
  rcases state_applyEntry key value conf with h | h
  · rw [h]
  · exact kind_of_entry h

theorem kind_applyAll (entries : List (Text × Text)) (conf : CacheConf) :
    (applyAll entries conf).state.kind = conf.kind := by
  unfold applyAll
  exact Act.state_forM (fun a b : CacheConf => b.kind = a.kind) (fun _ => rfl)
    (fun _ _ _ hab hbc => hbc.trans hab) (fun e => kind_applyEntry e.1 e.2) entries conf

theorem configure_apply (entries : List (Text × Text)) (conf : CacheConf) :
    (configure entries conf).state = (applyAll entries conf).state ∧
      (configure entries conf).result =
        (applyAll entries conf).result.bind fun _ =>
          (applyAll entries conf).state.check.mapError Failure.plain := by
  unfold configure
  rw [Act.get_bind]
  simp only [Act.within]
  cases hentries : applyAll entries conf with
  | mk result after events =>
    cases result with
    | error e =>
      rw [Act.bind_of_error hentries]
      exact ⟨rfl, rfl⟩
    | ok =>
      rw [Act.bind_of_ok hentries]
      unfold checkAll
      rw [Act.get_bind]
      cases after.check <;> exact ⟨rfl, rfl⟩

theorem kind_configure (entries : List (Text × Text)) (conf : CacheConf) :
    (configure entries conf).state.kind = conf.kind := by
  rw [(configure_apply entries conf).1]
  exact kind_applyAll entries conf

theorem kind_configureAll (lists : List (List (Text × Text))) (conf : CacheConf) :
    (configureAll lists conf).state.kind = conf.kind :=
  Act.state_forM (fun a b : CacheConf => b.kind = a.kind) (fun _ => rfl)
    (fun _ _ _ hab hbc => hbc.trans hab) kind_configure lists conf

theorem check_of_configure {entries : List (Text × Text)}
    (h : (configure entries conf).result = .ok ()) :
    (configure entries conf).state.check = .ok () := by
  rw [(configure_apply entries conf).2] at h
  rw [(configure_apply entries conf).1]
  cases hentries : (applyAll entries conf).result with
  | error e =>
    rw [hentries] at h
    cases h
  | ok =>
    rw [hentries] at h
    cases hcheck : (applyAll entries conf).state.check with
    | error e =>
      rw [hcheck] at h
      cases h
    | ok => rfl

-- The last list decides, because it leaves what all of them come to.
theorem check_of_configureAll {lists : List (List (Text × Text))} (hsome : lists ≠ [])
    (h : (configureAll lists conf).result = .ok ()) :
    (configureAll lists conf).state.check = .ok () := by
  induction lists generalizing conf with
  | nil => exact absurd rfl hsome
  | cons entries lists ih =>
    have hcons : configureAll (entries :: lists) =
        (configure entries >>= fun _ => configureAll lists) := List.forM_cons
    rw [hcons] at h ⊢
    have hcheck : (configure entries conf).result = .ok () →
        (configure entries conf).state.check = .ok () := check_of_configure
    cases hfirst : configure entries conf with
    | mk result after events =>
      rw [hfirst] at hcheck
      cases result with
      | error e =>
        rw [Act.bind_of_error hfirst] at h
        cases h
      | ok =>
        rw [Act.bind_of_ok hfirst] at h ⊢
        cases lists with
        | nil => exact hcheck rfl
        | cons => exact ih (List.cons_ne_nil _ _) h

end Foreman.CacheConf
