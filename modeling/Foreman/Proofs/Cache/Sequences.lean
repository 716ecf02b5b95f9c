import Foreman.Proofs.Cache.Filling

namespace Foreman.CacheConf

-- The entries of a list are taken one after the other.
inductive Takes : CacheConf → List (Text × Text) → CacheConf → Prop where
  | nil (conf : CacheConf) : Takes conf [] conf
  | cons {conf next after : CacheConf} {entry : Text × Text} {rest : List (Text × Text)}
      (hentry : conf.entry entry.1 entry.2 = .applied next) (hrest : Takes next rest after) :
      Takes conf (entry :: rest) after

inductive Refuses (conf : CacheConf) (entry : Text × Text) : Failure → Prop where
  | unknownKey (h : conf.entry entry.1 entry.2 = .unknownKey) :
      Refuses conf entry (wrongKey conf.tag entry.1)
  | badValue {why : Text} (h : conf.entry entry.1 entry.2 = .badValue why) :
      Refuses conf entry (wrongValue entry.1 entry.2 why)

-- An entry of a list is refused by what the entries in front of it left.
inductive Stops (conf : CacheConf) : List (Text × Text) → CacheConf → Failure → Prop where
  | intro {front : List (Text × Text)} {entry : Text × Text} (back : List (Text × Text))
      {left : CacheConf} {why : Failure} (hfront : conf.Takes front left)
      (hentry : left.Refuses entry why) : Stops conf (front ++ entry :: back) left why

variable {conf left : CacheConf} {entries : List (Text × Text)} {why : Failure}

theorem applied_or_refuses (conf : CacheConf) (entry : Text × Text) :
    (∃ next, conf.entry entry.1 entry.2 = .applied next) ∨ ∃ why, conf.Refuses entry why := by
  cases h : conf.entry entry.1 entry.2 with
  | applied next => exact .inl ⟨next, rfl⟩
  | unknownKey => exact .inr ⟨_, .unknownKey h⟩
  | badValue why => exact .inr ⟨_, .badValue h⟩

theorem takes_or_stops (conf : CacheConf) (entries : List (Text × Text)) :
    (∃ left, conf.Takes entries left) ∨ ∃ left why, conf.Stops entries left why := by
  induction entries generalizing conf with
  | nil => exact .inl ⟨conf, .nil conf⟩
  | cons entry rest ih =>
    rcases applied_or_refuses conf entry with ⟨next, hentry⟩ | ⟨why, hentry⟩
    · rcases ih next with ⟨left, hrest⟩ | ⟨left, why, hrest⟩
      · exact .inl ⟨left, .cons hentry hrest⟩
      · obtain ⟨back, hfront, hrefused⟩ := hrest
        exact .inr ⟨left, why, .intro back (.cons hentry hfront) hrefused⟩
    · exact .inr ⟨conf, why, .intro rest (.nil conf) hentry⟩

-- Nobody looks at what comes after a refused entry.
theorem Stops.append (h : conf.Stops entries left why) (more : List (Text × Text)) :
    conf.Stops (entries ++ more) left why := by
  obtain ⟨back, hfront, hentry⟩ := h
  rw [List.append_assoc, List.cons_append]
  exact .intro (back ++ more) hfront hentry

theorem applyEntry_of_refuses {entry : Text × Text} (h : conf.Refuses entry why) :
    (applyEntry entry.1 entry.2).Yields conf (.error why) conf := by
  unfold applyEntry
  rw [Act.Yields, Act.get_bind]
  cases h with
  | unknownKey h | badValue h =>
    rw [h]
    exact ⟨rfl, rfl⟩

-- The induction is on the entries that are taken. Each one leaves what the rest starts from.
theorem applyAll_append (h : conf.Takes entries left) (more : List (Text × Text)) :
    (applyAll (entries ++ more)).Yields conf (applyAll more left).result
      (applyAll more left).state := by
  induction h with
  | nil => exact ⟨rfl, rfl⟩
  | cons hentry _ ih =>
    have hfirst := applyEntry_of_applied hentry
    exact Act.Yields.bind ⟨congrArg Outcome.result hfirst, congrArg Outcome.state hfirst⟩ ih

theorem applyAll_of_takes (h : conf.Takes entries left) :
    (applyAll entries).Yields conf (.ok ()) left := by
  have hall := applyAll_append h []
  rwa [List.append_nil] at hall

theorem applyAll_of_stops (h : conf.Stops entries left why) :
    (applyAll entries).Yields conf (.error why) left := by
  obtain ⟨back, hfront, hentry⟩ := h
  obtain ⟨hresult, hstate⟩ := applyAll_append hfront (_ :: back)
  obtain ⟨hresult', hstate'⟩ :=
    Act.Yields.bind_error (applyEntry_of_refuses hentry) fun _ => applyAll back
  exact ⟨hresult.trans hresult', hstate.trans hstate'⟩

theorem takes_iff : (∃ left, conf.Takes entries left) ↔ ∀ e ∈ entries, conf.rejection? e = none := by
  rw [← result_applyAll_eq_ok_iff]
  constructor
  · rintro ⟨left, h⟩
    exact (applyAll_of_takes h).1
  · intro hok
    rcases takes_or_stops conf entries with h | ⟨left, why, h⟩
    · exact h
    · have herror := (applyAll_of_stops h).1
      rw [hok] at herror
      cases herror

theorem configure_of_takes (h : conf.Takes entries left) :
    (configure entries).Yields conf (left.check.mapError .plain) left := by
  obtain ⟨hstate, hresult⟩ := configure_apply entries conf
  obtain ⟨hresult', hstate'⟩ := applyAll_of_takes h
  rw [hresult', hstate'] at hresult
  exact ⟨hresult, hstate.trans hstate'⟩

theorem configure_of_stops (h : conf.Stops entries left why) :
    (configure entries).Yields conf (.error why) left := by
  obtain ⟨hstate, hresult⟩ := configure_apply entries conf
  obtain ⟨hresult', hstate'⟩ := applyAll_of_stops h
  rw [hresult'] at hresult
  exact ⟨hresult, hstate.trans hstate'⟩

-- The rest goes on as if it had been given to what the first entries left, checked or not.
theorem configure_append_of_takes (h : conf.Takes entries left) (more : List (Text × Text)) :
    (configure (entries ++ more)).Yields conf (configure more left).result
      (configure more left).state := by
  obtain ⟨hresult, hstate⟩ := applyAll_append h more
  obtain ⟨hwhole, hwhole'⟩ := configure_apply (entries ++ more) conf
  obtain ⟨hmore, hmore'⟩ := configure_apply more left
  rw [hresult, hstate, ← hmore'] at hwhole'
  exact ⟨hwhole', hwhole.trans (hstate.trans hmore.symm)⟩

-- Configuring with two lists put together. If an entry of the first list is refused, it is as if
-- there was only the first list: the failure is about this entry, and what the entries in front of it
-- made is left. Otherwise it is as if the second list was given to what the first one left, whether
-- or not that had passed the check.
theorem configure_append (conf : CacheConf) (xs ys : List (Text × Text)) :
    ((∃ left, conf.Takes xs left) ∨ ∃ left why, conf.Stops xs left why) ∧
    (∀ left why, conf.Stops xs left why →
      (configure xs).Yields conf (.error why) left ∧
        (configure (xs ++ ys)).Yields conf (.error why) left) ∧
    (∀ left, conf.Takes xs left →
      (configure xs conf).state = left ∧
        (configure (xs ++ ys)).Yields conf (configure ys left).result
          (configure ys left).state) := by
  refine ⟨takes_or_stops conf xs, fun left why h => ?_, fun left h => ⟨?_, ?_⟩⟩
  · exact ⟨configure_of_stops h, configure_of_stops (h.append ys)⟩
  · exact (configure_apply xs conf).1.trans (applyAll_of_takes h).2
  · exact configure_append_of_takes h ys

-- An address without encryption is rejected by the check, and accepted with what the second list
-- adds. Nothing can be added to a list with an unknown key.
theorem configure_append_to_http :
    ∃ conf left : CacheConf,
      conf.Takes [("url", "http://cache")] left ∧
      (configure [("url", "http://cache")] conf).result = .error (.plain
        ("insecure protocol requires allow_insecure_protocol : " ++ "http://cache")) ∧
      (configure [("url", "http://cache"), ("allow_insecure_protocol", "yes")] conf).result =
        .ok () ∧
      conf.Stops [("user", "me"), ("size", "1k")] { settings := .http { user := "me" } }
        (wrongKey .http "size") ∧
      (configure [("user", "me"), ("size", "1k"), ("enabled", "no")] conf).state =
        { settings := .http { user := "me" } } := by
  let conf : CacheConf := { settings := .http {} }
  have htakes : conf.Takes [("url", "http://cache")]
      { settings := .http { url := "http://cache" } } := .cons rfl (.nil _)
  have hstops : conf.Stops [("user", "me"), ("size", "1k")]
      { settings := .http { user := "me" } } (wrongKey .http "size") :=
    .intro [] (.cons rfl (.nil _)) (.unknownKey rfl)
  have hadded := (configure_append conf [("url", "http://cache")]
    [("allow_insecure_protocol", "yes")]).2.2 _ htakes
  have hstopped := (configure_append conf [("user", "me"), ("size", "1k")]
    [("enabled", "no")]).2.1 _ _ hstops
  exact ⟨conf, _, htakes, rfl, hadded.2.1.trans rfl, hstops, hstopped.2.2⟩

section Distinct

variable {entries' : List (Text × Text)} (hkeys : entries.Pairwise fun a b => a.1 ≠ b.1)
  (hperm : entries.Perm entries')

include hkeys hperm

theorem configure_reordered_of_takes (h : conf.Takes entries left) :
    (configure entries' conf).result = (configure entries conf).result ∧
      (configure entries' conf).state = (configure entries conf).state :=
  configure_perm hkeys hperm (takes_iff.mp ⟨left, h⟩)

theorem configure_reordered_of_ok (h : (configure entries conf).result = .ok ()) :
    (configure entries' conf).result = .ok () ∧
      (configure entries' conf).state = (configure entries conf).state := by
  obtain ⟨left, htakes⟩ := takes_iff.mpr (accepted_of_configure h)
  obtain ⟨hresult, hstate⟩ := configure_reordered_of_takes hkeys hperm htakes
  exact ⟨hresult.trans h, hstate⟩

-- A list in which no key comes twice is accepted in one order exactly if it is accepted in any
-- other, and then the same is left. As long as all entries are taken this holds of the check too:
-- it comes to the same, and finds the same fault if there is one.
theorem configure_reordered (conf : CacheConf) :
    ((configure entries conf).result = .ok () ↔ (configure entries' conf).result = .ok ()) ∧
    ((configure entries conf).result = .ok () →
      (configure entries' conf).state = (configure entries conf).state) ∧
    (∀ left, conf.Takes entries left →
      (configure entries' conf).result = (configure entries conf).result ∧
        (configure entries' conf).state = (configure entries conf).state) := by
  have hkeys' : entries'.Pairwise fun a b => a.1 ≠ b.1 :=
    (hperm.pairwise_iff fun h => Ne.symm h).mp hkeys
  refine ⟨⟨fun h => ?_, fun h => ?_⟩, fun h => ?_, fun left h => ?_⟩
  · exact (configure_reordered_of_ok hkeys hperm h).1
  · exact (configure_reordered_of_ok hkeys' hperm.symm h).1
  · exact (configure_reordered_of_ok hkeys hperm h).2
  · exact configure_reordered_of_takes hkeys hperm h

end Distinct

-- The address comes before the permission that it needs, and after it in the other order.
theorem configure_reordered_http :
    ∃ conf : CacheConf, ∃ entries : List (Text × Text),
      (entries.Pairwise fun a b => a.1 ≠ b.1) ∧ entries.Perm entries.reverse ∧
      entries = ([("url", "http://cache"), ("user", "me"), ("password", "secret"),
        ("allow_insecure_protocol", "yes")] : List (Text × Text)) ∧
      (configure entries.reverse conf).result = .ok () ∧
      (configure entries.reverse conf).state.settings = .http
        { url := "http://cache", allowInsecure := true, user := "me", password := "secret" } := by
  let conf : CacheConf := { settings := .http {} }
  let entries : List (Text × Text) := [("url", "http://cache"), ("user", "me"),
    ("password", "secret"), ("allow_insecure_protocol", "yes")]
  have hkeys : entries.Pairwise fun a b => a.1 ≠ b.1 := by decide
  have hperm : entries.Perm entries.reverse := (List.reverse_perm entries).symm
  obtain ⟨hiff, hstate, -⟩ := configure_reordered hkeys hperm conf
  exact ⟨conf, entries, hkeys, hperm, rfl, hiff.mp rfl, congrArg CacheConf.settings (hstate rfl)⟩

end Foreman.CacheConf
