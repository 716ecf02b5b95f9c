import Foreman.Proofs.Session.Act
import Mathlib.Data.List.Forall2

namespace Foreman

variable {σ τ σ' τ' α β γ δ : Type}

inductive Outcome.Twin (R : σ → τ → Prop) (Q : α → β → Prop) : Outcome σ α → Outcome τ β → Prop
    where
  | ok {a : α} {b : β} {s : σ} {t : τ} {events : List Event} (hq : Q a b) (hr : R s t) :
      Twin R Q ⟨.ok a, s, events⟩ ⟨.ok b, t, events⟩
  | error {e : Failure} {s : σ} {t : τ} {events : List Event} (hr : R s t) :
      Twin R Q ⟨.error e, s, events⟩ ⟨.error e, t, events⟩

namespace Outcome.Twin

variable {R : σ → τ → Prop} {Q : α → β → Prop} {first : Outcome σ α} {second : Outcome τ β}

theorem state (h : first.Twin R Q second) : R first.state second.state := by
  cases h with
  | ok _ hr => exact hr
  | error hr => exact hr

theorem events (h : first.Twin R Q second) : first.events = second.events := by
  cases h <;> rfl

theorem result_eq {first : Outcome σ α} {second : Outcome τ α}
    (h : first.Twin R (fun a b => a = b) second) : first.result = second.result := by
  cases h with
  | ok hq _ => exact congrArg Except.ok hq
  | error _ => rfl

theorem result_eq_of_unit {Q : Unit → Unit → Prop} {first : Outcome σ Unit}
    {second : Outcome τ Unit} (h : first.Twin R Q second) : first.result = second.result := by
  cases h <;> rfl

theorem withEvents (h : first.Twin R Q second) (front back : List Event) :
    Twin R Q ⟨first.result, first.state, front ++ first.events ++ back⟩
      ⟨second.result, second.state, front ++ second.events ++ back⟩ := by
  cases h with
  | ok hq hr => exact .ok hq hr
  | error hr => exact .error hr

end Outcome.Twin

def Act.Twin (R : σ → τ → Prop) (Q : α → β → Prop) (act : Act σ α) (other : Act τ β) : Prop :=
  ∀ s t, R s t → (act s).Twin R Q (other t)

namespace Act.Twin

variable {R : σ → τ → Prop} {Q : α → β → Prop} {Q' : γ → δ → Prop} {act : Act σ α}
  {other : Act τ β}

theorem pure {a : α} {b : β} (h : Q a b) :
    Twin R Q (Pure.pure a : Act σ α) (Pure.pure b : Act τ β) :=
  fun _ _ hr => .ok h hr

theorem fail (e : Failure) : Twin R Q (Act.fail e : Act σ α) (Act.fail e : Act τ β) :=
  fun _ _ hr => .error hr

theorem get : Twin R R (Act.get : Act σ σ) (Act.get : Act τ τ) :=
  fun _ _ hr => .ok hr hr

theorem modify {f : σ → σ} {g : τ → τ} (h : ∀ s t, R s t → R (f s) (g t)) :
    Twin R (fun _ _ => True) (Act.modify f) (Act.modify g) :=
  fun s t hr => .ok trivial (h s t hr)

theorem tell (events : List Event) :
    Twin R (fun _ _ => True) (Act.tell events : Act σ Unit) (Act.tell events : Act τ Unit) :=
  fun _ _ hr => .ok trivial hr

theorem bind {next : α → Act σ γ} {next' : β → Act τ δ} (h : Twin R Q act other)
    (hnext : ∀ a b, Q a b → Twin R Q' (next a) (next' b)) :
    Twin R Q' (act >>= next) (other >>= next') := by
  intro s t hr
  have hst := h s t hr
  cases hact : act s with
  | mk result s' events =>
    cases hother : other t with
    | mk result' t' events' =>
      rw [hact, hother] at hst
      cases hst with
      | ok hq hr' =>
        rw [bind_of_ok hact, bind_of_ok hother]
        simpa using (hnext _ _ hq _ _ hr').withEvents events []
      | error hr' =>
        rw [bind_of_error hact, bind_of_error hother]
        exact .error hr'

theorem within (channel : Channel) (tag : Text) (words : List Text) (h : Twin R Q act other) :
    Twin R Q (Act.within channel tag words act) (Act.within channel tag words other) :=
  fun s t hr => (h s t hr).withEvents [.opened channel tag (some words)] [.closed]

theorem orElse {handler : Failure → Act σ α} {handler' : Failure → Act τ β}
    (h : Twin R Q act other) (hhandler : ∀ e, Twin R Q (handler e) (handler' e)) :
    Twin R Q (act.orElse handler) (other.orElse handler') := by
  intro s t hr
  have hst := h s t hr
  unfold Act.orElse
  cases hact : act s with
  | mk result s' events =>
    cases hother : other t with
    | mk result' t' events' =>
      rw [hact, hother] at hst
      cases hst with
      | ok hq hr' => exact .ok hq hr'
      | @error e _ _ _ hr' => simpa using (hhandler e _ _ hr').withEvents events []

theorem forM {P : α → β → Prop} {act : α → Act σ Unit} {other : β → Act τ Unit}
    (h : ∀ a b, P a b → Twin R (fun _ _ => True) (act a) (other b)) {items : List α}
    {items' : List β} (hitems : List.Forall₂ P items items') :
    Twin R (fun _ _ => True) (items.forM act : Act σ Unit) (items'.forM other : Act τ Unit) := by
  induction hitems with
  | nil => exact pure trivial
  | cons hhead _ ih => exact bind (h _ _ hhead) fun _ _ _ => ih

theorem on {R' : σ' → τ' → Prop} {act : Act σ' α} {other : Act τ' β} {part : σ → σ'}
    {part' : τ → τ'} {update : σ → σ' → σ} {update' : τ → τ' → τ}
    (hpart : ∀ s t, R s t → R' (part s) (part' t))
    (hupdate : ∀ s t s' t', R s t → R' s' t' → R (update s s') (update' t t'))
    (h : Twin R' Q act other) : Twin R Q (act.on part update) (other.on part' update') := by
  intro s t hr
  have hst := h _ _ (hpart s t hr)
  unfold Act.on
  cases hact : act (part s) with
  | mk result s' events =>
    cases hother : other (part' t) with
    | mk result' t' events' =>
      rw [hact, hother] at hst
      cases hst with
      | ok hq hr' => exact .ok hq (hupdate _ _ _ _ hr hr')
      | error hr' => exact .error (hupdate _ _ _ _ hr hr')

end Act.Twin

end Foreman
