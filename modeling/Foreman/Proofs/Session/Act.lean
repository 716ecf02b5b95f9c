import Foreman.Session.Act

namespace Foreman

theorem bind_eq_ok_iff {ε α β : Type} {value : Except ε α} {next : α → Except ε β} {b : β} :
    (value >>= next) = .ok b ↔ ∃ a, value = .ok a ∧ next a = .ok b := by
  constructor
  · intro h
    cases value with
    | error e => cases h
    | ok a => exact ⟨a, rfl, h⟩
  · rintro ⟨a, rfl, h⟩
    exact h

theorem bind_eq_error {ε α β : Type} {value : Except ε α} {next : α → Except ε β} {e : ε}
    (h : (value >>= next) = .error e) :
    value = .error e ∨ ∃ a, value = .ok a ∧ next a = .error e := by
  cases value with
  | error e' =>
    cases h
    exact .inl rfl
  | ok a => exact .inr ⟨a, rfl, h⟩

def Event.report? : Event → Option (LogLevel × Text)
  | .reported level message => some (level, message)
  | _ => none

namespace Outcome

variable {σ α : Type}

def reports (outcome : Outcome σ α) : List (LogLevel × Text) :=
  outcome.events.filterMap Event.report?

theorem eq_mk {outcome : Outcome σ α} {result : Except Failure α} {s : σ} {events : List Event}
    (hresult : outcome.result = result) (hstate : outcome.state = s)
    (hevents : outcome.events = events) : outcome = ⟨result, s, events⟩ := by
  cases hresult
  cases hstate
  cases hevents
  rfl

end Outcome

namespace Act

variable {σ τ α β : Type}

theorem pure_apply (a : α) (s : σ) : (pure a : Act σ α) s = ⟨.ok a, s, []⟩ := rfl

theorem fail_apply (e : Failure) (s : σ) : (Act.fail e : Act σ α) s = ⟨.error e, s, []⟩ := rfl

theorem get_bind (next : σ → Act σ β) (s : σ) : (Act.get >>= next) s = next s s := rfl

theorem ite_apply (c : Prop) [Decidable c] (a b : Act σ α) (s : σ) :
    (if c then a else b : Act σ α) s = if c then a s else b s := by
  split <;> rfl

theorem bind_of_error {act : Act σ α} {s s' : σ} {e : Failure} {events : List Event}
    (h : act s = ⟨.error e, s', events⟩) (next : α → Act σ β) :
    (act >>= next) s = ⟨.error e, s', events⟩ := by
  simp only [bind, Act.bind, h]

theorem bind_of_ok {act : Act σ α} {s s' : σ} {a : α} {events : List Event}
    (h : act s = ⟨.ok a, s', events⟩) (next : α → Act σ β) :
    (act >>= next) s =
      ⟨(next a s').result, (next a s').state, events ++ (next a s').events⟩ := by
  simp only [bind, Act.bind, h]

theorem bind_pure (act : Act σ α) (f : α → β) (s : σ) :
    (act >>= fun a => pure (f a)) s = ⟨(act s).result.map f, (act s).state, (act s).events⟩ := by
  cases h : act s with
  | mk result s' events =>
    cases result with
    | error e => rw [bind_of_error h]; rfl
    | ok a => rw [bind_of_ok h, pure_apply, List.append_nil]; rfl

theorem reports_bind_of_ok {act : Act σ α} {s s' : σ} {a : α} {events : List Event}
    (h : act s = ⟨.ok a, s', events⟩) (next : α → Act σ β) :
    ((act >>= next) s).reports = events.filterMap Event.report? ++ (next a s').reports := by
  rw [bind_of_ok h, Outcome.reports, List.filterMap_append, ← Outcome.reports]

theorem reports_within (channel : Channel) (tag : Text) (words : List Text) (act : Act σ α)
    (s : σ) : (within channel tag words act s).reports = (act s).reports := by
  simp [within, Outcome.reports, List.filterMap_cons, Event.report?]

-- What an operation comes to, the events left aside.
def Yields (act : Act σ α) (s : σ) (result : Except Failure α) (s' : σ) : Prop :=
  (act s).result = result ∧ (act s).state = s'

theorem exists_yields (act : Act σ α) (s : σ) : ∃ result s', act.Yields s result s' :=
  ⟨_, _, rfl, rfl⟩

namespace Yields

variable {act : Act σ α} {next : α → Act σ β} {s s' s'' : σ} {a : α} {e : Failure}
  {result : Except Failure β}

theorem apply {result : Except Failure α} (h : act.Yields s result s') :
    act s = ⟨result, s', (act s).events⟩ :=
  Outcome.eq_mk h.1 h.2 rfl

theorem on {part : τ → σ} {update : τ → σ → τ} {t : τ} {result : Except Failure α}
    (h : act.Yields (part t) result s') : (act.on part update).Yields t result (update t s') := by
  obtain ⟨rfl, rfl⟩ := h
  exact ⟨rfl, rfl⟩

theorem bind (hact : act.Yields s (.ok a) s') (hnext : (next a).Yields s' result s'') :
    (act >>= next).Yields s result s'' := by
  rw [Yields, bind_of_ok hact.apply]
  exact hnext

theorem of_bind {b : β} (h : (act >>= next).Yields s (.ok b) s'') :
    ∃ a s', act.Yields s (.ok a) s' ∧ (next a).Yields s' (.ok b) s'' := by
  obtain ⟨hresult, hstate⟩ := h
  cases hact : act s with
  | mk result s' events =>
    cases result with
    | error e =>
      rw [bind_of_error hact] at hresult
      cases hresult
    | ok a =>
      rw [bind_of_ok hact] at hresult hstate
      exact ⟨a, s', ⟨by rw [hact], by rw [hact]⟩, hresult, hstate⟩

theorem bind_error (hact : act.Yields s (.error e) s') (next : α → Act σ β) :
    (act >>= next).Yields s (.error e) s' := by
  rw [Yields, bind_of_error hact.apply]
  exact ⟨rfl, rfl⟩

theorem orElse_ok {handler : Failure → Act σ α} (hact : act.Yields s (.ok a) s') :
    (act.orElse handler).Yields s (.ok a) s' := by
  rw [Yields, orElse, hact.apply]
  exact ⟨rfl, rfl⟩

theorem orElse_error {handler : Failure → Act σ α} {result : Except Failure α}
    (hact : act.Yields s (.error e) s') (hhandler : (handler e).Yields s' result s'') :
    (act.orElse handler).Yields s result s'' := by
  rw [Yields, orElse, hact.apply]
  exact hhandler

theorem within {channel : Channel} {tag : Text} {words : List Text} {result : Except Failure α}
    (hact : act.Yields s result s') : (Act.within channel tag words act).Yields s result s' :=
  hact

theorem of_within {channel : Channel} {tag : Text} {words : List Text} {result : Except Failure α}
    (h : (Act.within channel tag words act).Yields s result s') : act.Yields s result s' :=
  h

end Yields

-- What an operation comes to, and the messages to the user on the way there.
structure Ends (act : Act σ α) (s : σ) (result : Except Failure α) (s' : σ)
    (messages : List (LogLevel × Text)) : Prop where
  yields : act.Yields s result s'
  reports : (act s).reports = messages

theorem exists_ends (act : Act σ α) (s : σ) : ∃ result s' messages, act.Ends s result s' messages :=
  ⟨_, _, _, ⟨rfl, rfl⟩, rfl⟩

namespace Ends

variable {act : Act σ α} {next : α → Act σ β} {handler : Failure → Act σ α} {s s' s'' : σ} {a : α}
  {e : Failure} {front back : List (LogLevel × Text)}

theorem on {part : τ → σ} {update : τ → σ → τ} {t : τ} {result : Except Failure α}
    (h : act.Ends (part t) result s' front) :
    (act.on part update).Ends t result (update t s') front := by
  refine ⟨h.yields.on, ?_⟩
  rw [← h.reports]
  rfl

theorem bind {result : Except Failure β} (hact : act.Ends s (.ok a) s' front)
    (hnext : (next a).Ends s' result s'' back) :
    (act >>= next).Ends s result s'' (front ++ back) := by
  refine ⟨hact.yields.bind hnext.yields, ?_⟩
  rw [reports_bind_of_ok hact.yields.apply, ← hact.reports, ← hnext.reports]
  rfl

theorem bind_cons {message : LogLevel × Text} {result : Except Failure β}
    (hact : act.Ends s (.ok a) s' [message]) (hnext : (next a).Ends s' result s'' back) :
    (act >>= next).Ends s result s'' (message :: back) :=
  hact.bind hnext

theorem bind_of_silent {result : Except Failure β} (hact : act.Ends s (.ok a) s' [])
    (hnext : (next a).Ends s' result s'' back) : (act >>= next).Ends s result s'' back :=
  hact.bind hnext

theorem bind_silent {result : Except Failure β} (hact : act.Ends s (.ok a) s' front)
    (hnext : (next a).Ends s' result s'' []) : (act >>= next).Ends s result s'' front := by
  rw [← List.append_nil front]
  exact hact.bind hnext

theorem bind_error (hact : act.Ends s (.error e) s' front) (next : α → Act σ β) :
    (act >>= next).Ends s (.error e) s' front := by
  refine ⟨hact.yields.bind_error next, ?_⟩
  rw [bind_of_error hact.yields.apply]
  exact hact.reports

theorem orElse_ok (hact : act.Ends s (.ok a) s' front) :
    (act.orElse handler).Ends s (.ok a) s' front := by
  refine ⟨hact.yields.orElse_ok, ?_⟩
  rw [orElse, hact.yields.apply]
  exact hact.reports

theorem orElse_error {result : Except Failure α} (hact : act.Ends s (.error e) s' front)
    (hhandler : (handler e).Ends s' result s'' back) :
    (act.orElse handler).Ends s result s'' (front ++ back) := by
  refine ⟨hact.yields.orElse_error hhandler.yields, ?_⟩
  rw [orElse, hact.yields.apply, Outcome.reports, List.filterMap_append, ← hact.reports,
    ← hhandler.reports]
  rfl

theorem within {channel : Channel} {tag : Text} {words : List Text} {result : Except Failure α}
    (hact : act.Ends s result s' front) : (Act.within channel tag words act).Ends s result s' front :=
  ⟨hact.yields.within, (reports_within channel tag words act s).trans hact.reports⟩

end Ends

theorem state_bind {R : σ → σ → Prop} (htrans : ∀ a b c, R a b → R b c → R a c)
    {act : Act σ α} {next : α → Act σ β} (hact : ∀ s, R s (act s).state)
    (hnext : ∀ a s, R s (next a s).state) (s : σ) : R s ((act >>= next) s).state := by
  have hs := hact s
  cases h : act s with
  | mk result s' events =>
    rw [h] at hs
    cases result with
    | error e =>
      rw [bind_of_error h]
      exact hs
    | ok a =>
      rw [bind_of_ok h]
      exact htrans _ _ _ hs (hnext a s')

theorem state_forM (R : σ → σ → Prop) (hrefl : ∀ s, R s s)
    (htrans : ∀ a b c, R a b → R b c → R a c) {act : α → Act σ Unit}
    (hact : ∀ a s, R s (act a s).state) (items : List α) (s : σ) :
    R s ((items.forM act : Act σ Unit) s).state := by
  induction items generalizing s with
  | nil => exact hrefl s
  | cons a items ih =>
    change R s ((act a >>= fun _ => items.forM act : Act σ Unit) s).state
    exact state_bind htrans (hact a) (fun _ => ih) s

def Quiet (act : Act σ α) : Prop := ∀ s, (act s).reports = []

namespace Quiet

variable {act : Act σ α} {next : α → Act σ β}

theorem pure (a : α) : Quiet (Pure.pure a : Act σ α) := fun _ => rfl

theorem fail (e : Failure) : Quiet (Act.fail e : Act σ α) := fun _ => rfl

theorem get : Quiet (Act.get : Act σ σ) := fun _ => rfl

theorem modify (f : σ → σ) : Quiet (Act.modify f) := fun _ => rfl

theorem note (words : List Text) : Quiet (Act.note words : Act σ Unit) := fun _ => rfl

theorem bind (hact : Quiet act) (hnext : ∀ a, Quiet (next a)) : Quiet (act >>= next) := by
  intro s
  have hs := hact s
  cases h : act s with
  | mk result s' events =>
    rw [h] at hs
    cases result with
    | error e =>
      rw [bind_of_error h]
      exact hs
    | ok a =>
      rw [reports_bind_of_ok h]
      exact List.append_eq_nil_iff.mpr ⟨hs, hnext a s'⟩

theorem within {channel : Channel} {tag : Text} {words : List Text} (hact : Quiet act) :
    Quiet (Act.within channel tag words act) := fun s =>
  (reports_within channel tag words act s).trans (hact s)

theorem orElse {handler : Failure → Act σ α} (hact : Quiet act)
    (hhandler : ∀ e, Quiet (handler e)) : Quiet (act.orElse handler) := by
  intro s
  have hs := hact s
  unfold Act.orElse
  cases h : act s with
  | mk result s' events =>
    rw [h] at hs
    cases result with
    | ok a => exact hs
    | error e =>
      dsimp only
      rw [Outcome.reports, List.filterMap_append]
      exact List.append_eq_nil_iff.mpr ⟨hs, hhandler e s'⟩

theorem forM {act : α → Act σ Unit} (hact : ∀ a, Quiet (act a)) (items : List α) :
    Quiet (items.forM act : Act σ Unit) := by
  induction items with
  | nil => exact pure ()
  | cons a items ih => exact bind (hact a) fun _ => ih

end Quiet

end Act

end Foreman
