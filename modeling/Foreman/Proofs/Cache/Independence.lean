import Foreman.Proofs.Cache.Calls

namespace Foreman.Tiers

-- Tiers that look the same to the calls on one of them.
structure Agree (tier : CacheTier) (s t : Tiers) : Prop where
  instantiator : s.instantiator = t.instantiator
  registry : s.registry = t.registry
  slot : s.slot tier = t.slot tier

namespace Agree

variable {tier : CacheTier} {s t u : Tiers}

theorem refl (tier : CacheTier) (s : Tiers) : Agree tier s s := ⟨rfl, rfl, rfl⟩

theorem trans (h : Agree tier s t) (h' : Agree tier t u) : Agree tier s u :=
  ⟨h.instantiator.trans h'.instantiator, h.registry.trans h'.registry, h.slot.trans h'.slot⟩

theorem symm (h : Agree tier s t) : Agree tier t s :=
  ⟨h.instantiator.symm, h.registry.symm, h.slot.symm⟩

theorem eq (h : Agree tier s t) (h' : Agree tier.other s t) : s = t := by
  have hboth : Agree .local s t ∧ Agree .remote s t := by
    cases tier with
    | «local» => exact ⟨h, h'⟩
    | remote => exact ⟨h', h⟩
  obtain ⟨inst, registry, held, remoteHeld⟩ := s
  obtain ⟨inst', registry', held', remoteHeld'⟩ := t
  obtain ⟨⟨rfl, rfl, hlocal⟩, ⟨-, -, hremote⟩⟩ := hboth
  cases hlocal
  cases hremote
  rfl

theorem setSlot (h : Agree tier s t) (slot : Slot) :
    Agree tier (s.setSlot tier slot) (t.setSlot tier slot) := by
  refine ⟨?_, ?_, ?_⟩
  · simpa only [instantiator_setSlot] using h.instantiator
  · simpa only [registry_setSlot] using h.registry
  · cases tier with
    | «local» =>
      have hheld : s.localHeld = t.localHeld := Option.some.inj h.slot
      simp only [Tiers.setSlot, Tiers.slot, hheld]
    | remote => rfl

theorem setSlot_other (tier : CacheTier) (s : Tiers) (slot : Slot) :
    Agree tier.other (s.setSlot tier slot) s :=
  ⟨instantiator_setSlot s tier slot, registry_setSlot s tier slot, slot_setSlot_other s tier slot⟩

end Agree

structure Alike (tier : CacheTier) {α : Type} (a b : Outcome Tiers α) : Prop where
  result : a.result = b.result
  events : a.events = b.events
  state : Agree tier a.state b.state

-- An operation that stays on one tier: it changes nothing but the slot of this tier, and what it
-- does depends on nothing but this slot, the instantiator and the registry.
structure Confined (tier : CacheTier) {α : Type} (act : Act Tiers α) : Prop where
  frame : ∀ s, Agree tier.other (act s).state s
  alike : ∀ {s t}, Agree tier s t → Alike tier (act s) (act t)

namespace Confined

variable {tier : CacheTier} {α β : Type}

theorem pure (tier : CacheTier) (a : α) : Confined tier (Pure.pure a : Act Tiers α) :=
  ⟨fun s => .refl _ s, fun h => ⟨rfl, rfl, h⟩⟩

theorem fail (tier : CacheTier) (e : Failure) : Confined tier (Act.fail e : Act Tiers α) :=
  ⟨fun s => .refl _ s, fun h => ⟨rfl, rfl, h⟩⟩

theorem tell (tier : CacheTier) (events : List Event) : Confined tier (Act.tell events) :=
  ⟨fun s => .refl _ s, fun h => ⟨rfl, rfl, h⟩⟩

theorem bind {act : Act Tiers α} {next : α → Act Tiers β} (hact : Confined tier act)
    (hnext : ∀ a, Confined tier (next a)) : Confined tier (act >>= next) := by
  constructor
  · intro s
    have hframe := hact.frame s
    cases h : act s with
    | mk result s' events =>
      rw [h] at hframe
      cases result with
      | error e =>
        rw [Act.bind_of_error h]
        exact hframe
      | ok a =>
        rw [Act.bind_of_ok h]
        exact ((hnext a).frame s').trans hframe
  · intro s t hagree
    have halike := hact.alike hagree
    cases hs : act s with
    | mk result s' events =>
      cases ht : act t with
      | mk result' t' events' =>
        rw [hs, ht] at halike
        obtain ⟨rfl, rfl, hstate⟩ := halike
        cases result with
        | error e =>
          rw [Act.bind_of_error hs, Act.bind_of_error ht]
          exact ⟨rfl, rfl, hstate⟩
        | ok a =>
          rw [Act.bind_of_ok hs, Act.bind_of_ok ht]
          have hrest := (hnext a).alike hstate
          exact ⟨hrest.result, congrArg (events ++ ·) hrest.events, hrest.state⟩

theorem within {channel : Channel} {tag : Text} {words : List Text} {act : Act Tiers α}
    (h : Confined tier act) : Confined tier (Act.within channel tag words act) := by
  constructor
  · exact h.frame
  · intro s t hagree
    have halike := h.alike hagree
    refine ⟨halike.result, ?_, halike.state⟩
    simp only [Act.within, halike.events]

-- Looking at the tiers is harmless where only one of them matters.
theorem get_bind {next : Tiers → Act Tiers α} (hnext : ∀ s, Confined tier (next s))
    (hsame : ∀ {s t}, Agree tier s t → next s = next t) :
    Confined tier (Act.get >>= next) := by
  constructor
  · intro s
    exact (hnext s).frame s
  · intro s t hagree
    rw [Act.get_bind, Act.get_bind, hsame hagree]
    exact (hnext t).alike hagree

theorem onSlot (tier : CacheTier) (act : Act Slot α) :
    Confined tier (Act.on (fun s => s.slot tier) (fun s slot => s.setSlot tier slot) act) := by
  constructor
  · intro s
    exact .setSlot_other tier s _
  · intro s t hagree
    simp only [Act.on, hagree.slot]
    exact ⟨rfl, rfl, hagree.setSlot _⟩

theorem configure (tier : CacheTier) (tag : CacheTag) (mutator : Mutator) :
    Confined tier (Tiers.configure tier tag mutator) := by
  refine get_bind (fun s => bind (onSlot tier _) fun held => pure tier _) ?_
  intro s t hagree
  rw [hagree.instantiator]

theorem configureAs (tier : CacheTier) (cls : ConfClass) (mutator : Mutator) :
    Confined tier (Tiers.configureAs tier cls mutator) := by
  refine bind (configure tier cls.tag _) fun conf => ?_
  split
  · refine get_bind ?_ ?_
    · intro s
      cases s.slot tier with
      | none => exact pure tier conf
      | some held => exact bind (onSlot tier _) fun held => pure tier _
    · intro s t hagree
      rw [hagree.slot]
  · exact fail tier _

theorem mutate (tier : CacheTier) (mutator : Mutator) :
    Confined tier (Tiers.mutate tier mutator) := by
  cases tier with
  | «local» =>
    refine get_bind (fun s => within (bind (onSlot .local _) fun held => pure .local _)) ?_
    intro s t hagree
    rw [Option.some.inj hagree.slot]
  | remote =>
    refine get_bind ?_ ?_
    · intro s
      refine within ?_
      cases s.remoteHeld with
      | none => exact fail .remote _
      | some held => exact bind (onSlot .remote _) fun held => pure .remote _
    · intro s t hagree
      have hheld : s.remoteHeld = t.remoteHeld := hagree.slot
      rw [hheld]

theorem resolveIn (tier : CacheTier) (registry : Registry) (tag : CacheTag) :
    Confined tier (registry.resolve tag) := by
  refine within ?_
  cases registry.find? tag with
  | none => exact bind (tell tier _) fun _ => fail tier _
  | some r => exact bind (tell tier _) fun _ => bind (tell tier _) fun _ => pure tier _

theorem resolve (tier : CacheTier) : Confined tier (Tiers.resolve tier) := by
  refine get_bind ?_ ?_
  · intro s
    cases s.slot tier with
    | none => exact fail tier _
    | some held => exact resolveIn tier _ _
  · intro s t hagree
    rw [hagree.slot, hagree.registry]

theorem perform {call : TierCall} (h : call.isOn tier) : Confined tier call.perform := by
  cases call with
  | configure t tag change =>
    obtain rfl := of_decide_eq_true h
    exact bind (configure t tag change.mutator) fun conf => pure t _
  | configureAs t cls change =>
    obtain rfl := of_decide_eq_true h
    exact bind (configureAs t cls change.mutator) fun conf => pure t _
  | mutate t change =>
    obtain rfl := of_decide_eq_true h
    exact bind (mutate t change.mutator) fun _ => pure t _
  | resolve t =>
    obtain rfl := of_decide_eq_true h
    exact bind (resolve t) fun name => pure t _
  | register tag factory => cases h

end Confined

variable {tier : CacheTier} {s t : Tiers}

theorem alike_register (tag : CacheTag) (factory : Text) (h : Agree tier s t) :
    Alike tier ((TierCall.register tag factory).perform s)
      ((TierCall.register tag factory).perform t) := by
  simp only [TierCall.perform, Tiers.register, Act.bind_pure, Act.on, h.registry]
  exact ⟨rfl, rfl, h.instantiator, rfl, by cases tier <;> exact h.slot⟩

theorem alike_perform {call : TierCall} (hcall : ¬call.isOn tier.other) (h : Agree tier s t) :
    Alike tier (call.perform s) (call.perform t) := by
  rcases call.isOn_or_register tier with hon | hother | ⟨tag, factory, rfl⟩
  · exact (Confined.perform hon).alike h
  · exact absurd hother hcall
  · exact alike_register tag factory h

structure Step where
  before : Tiers
  call : TierCall

namespace Step

def outcome (step : Step) : Outcome Tiers Reply :=
  step.call.perform step.before

end Step

-- The calls of a row, one after the other, whatever each of them comes to.
def steps (tiers : Tiers) : List TierCall → List Step
  | [] => []
  | call :: calls => ⟨tiers, call⟩ :: steps (call.perform tiers).state calls

structure Observation where
  result : Except Failure Reply
  -- the messages to the user, and the records for the trace
  events : List Event
  before : Slot
  after : Slot

def observe (tier : CacheTier) (step : Step) : Observation :=
  ⟨step.outcome.result, step.outcome.events, step.before.slot tier,
    step.outcome.state.slot tier⟩

theorem observe_eq {call : TierCall} (hcall : ¬call.isOn tier.other) (h : Agree tier s t) :
    observe tier ⟨s, call⟩ = observe tier ⟨t, call⟩ := by
  have halike := alike_perform hcall h
  simp only [observe, Step.outcome, halike.result, halike.events, halike.state.slot, h.slot]

-- Both runs start from tiers that agree on what is observed. A call that is left out keeps them
-- in agreement, because it does not write to the slot that is observed.
theorem observe_steps_of_agree (calls : List TierCall) (h : Agree tier s t) :
    ((s.steps calls).filter fun step => !step.call.isOn tier.other).map (observe tier) =
      (t.steps (calls.filter fun call => !call.isOn tier.other)).map (observe tier) := by
  induction calls generalizing s t with
  | nil => rfl
  | cons call calls ih =>
    by_cases hcall : call.isOn tier.other
    · have hframe := (Confined.perform hcall).frame s
      rw [CacheTier.other_other] at hframe
      simpa only [steps, List.filter_cons, hcall, Bool.not_true, Bool.false_eq_true, ite_false]
        using ih (hframe.trans h)
    · have hstate := (alike_perform hcall h).state
      simp only [steps, List.filter_cons, hcall, Bool.not_false, ite_true, List.map_cons,
        observe_eq hcall h, ih hstate]

theorem slot_unchanged (step : Step) (hon : step.call.isOn tier.other) :
    step.outcome.state.slot tier = step.before.slot tier := by
  have hframe := (Confined.perform hon).frame step.before
  rw [CacheTier.other_other] at hframe
  exact hframe.slot

-- Leaving out all calls on one tier changes nothing for the other one: the remaining calls come
-- to the same and tell the same, and meet and leave the same configurations. The calls that are
-- left out were without effect there.
theorem calls_on_one_tier_unseen_by_other (tiers : Tiers) (tier : CacheTier)
    (calls : List TierCall) :
    ((tiers.steps calls).filter fun step => !step.call.isOn tier.other).map (observe tier) =
        (tiers.steps (calls.filter fun call => !call.isOn tier.other)).map (observe tier) ∧
      ∀ step ∈ tiers.steps calls, step.call.isOn tier.other →
        step.outcome.state.slot tier = step.before.slot tier :=
  ⟨observe_steps_of_agree calls (.refl tier tiers), fun step _ => slot_unchanged step⟩

end Foreman.Tiers
