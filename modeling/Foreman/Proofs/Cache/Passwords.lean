import Foreman.Cache.Tiers
import Foreman.Proofs.Session.Twin

namespace Foreman

inductive EntryTwin : Text × Text → Text × Text → Prop where
  | same (e : Text × Text) : EntryTwin e e
  | password {p q : Text} (hp : p ≠ []) (hq : q ≠ []) :
      EntryTwin ("password", p) ("password", q)

inductive CacheConf.Twin : CacheConf → CacheConf → Prop where
  | same (conf : CacheConf) : Twin conf conf
  | http (push enabled : Bool) (own : HttpSettings) {p q : Text} (hp : p ≠ []) (hq : q ≠ []) :
      Twin ⟨push, enabled, .http { own with password := p }⟩
        ⟨push, enabled, .http { own with password := q }⟩

inductive EntryOutcome.Twin : EntryOutcome → EntryOutcome → Prop where
  | applied {a b : CacheConf} (h : a.Twin b) : Twin (.applied a) (.applied b)
  | unknownKey : Twin .unknownKey .unknownKey
  | badValue (why : Text) : Twin (.badValue why) (.badValue why)

namespace EntryOutcome.Twin

theorem refl (outcome : EntryOutcome) : Twin outcome outcome := by
  cases outcome with
  | applied conf => exact .applied (.same conf)
  | unknownKey => exact .unknownKey
  | badValue why => exact .badValue why

theorem ite {c : Prop} [Decidable c] {a b a' b' : EntryOutcome} (h : Twin a b)
    (h' : Twin a' b') : Twin (if c then a else a') (if c then b else b') := by
  split
  · exact h
  · exact h'

theorem setFlag {set set' : Bool → CacheConf} (h : ∀ flag, (set flag).Twin (set' flag))
    (value : Text) : Twin (CacheConf.setFlag value set) (CacheConf.setFlag value set') := by
  unfold CacheConf.setFlag
  cases CacheConf.readFlag value with
  | some flag => exact .applied (h flag)
  | none => exact .badValue _

end EntryOutcome.Twin

namespace CacheConf

variable {a b : CacheConf}

theorem Twin.tag_eq (h : a.Twin b) : a.tag = b.tag := by
  cases h <;> rfl

theorem Twin.isA_eq (h : a.Twin b) (tag : CacheTag) : a.isA tag = b.isA tag := by
  rw [isA, isA, h.tag_eq]

-- The check asks no more of a password than whether there is one.
theorem Twin.check_eq (h : a.Twin b) : a.check = b.check := by
  cases h with
  | same => rfl
  | http push enabled own hp hq =>
    simp only [check, checkHttp, List.isEmpty_eq_false_iff.mpr hp, List.isEmpty_eq_false_iff.mpr hq]

theorem twin_entry (h : a.Twin b) (key value : Text) :
    (a.entry key value).Twin (b.entry key value) := by
  cases h with
  | same => exact .refl _
  | http push enabled own hp hq =>
    unfold entry httpEntry commonEntry
    dsimp only
    refine .ite (.setFlag (fun flag => ?untrusted) value) <|
      .ite (.setFlag (fun flag => ?insecure) value) <| .ite (.refl _) <| .ite (.applied ?url) <|
      .ite (.applied ?user) <| .ite (.setFlag (fun flag => ?enabled) value) <|
      .ite (.setFlag (fun flag => ?push) value) <| .ite ?tag .unknownKey
    case untrusted => exact .http push enabled { own with allowUntrusted := flag } hp hq
    case insecure => exact .http push enabled { own with allowInsecure := flag } hp hq
    case url => exact .http push enabled { own with url := value } hp hq
    case user => exact .http push enabled { own with user := value } hp hq
    case enabled => exact .http push flag own hp hq
    case push => exact .http flag enabled own hp hq
    case tag =>
      cases (Enumeration.ofName value : Except Text CacheTag) with
      | error why => exact .badValue why
      | ok tag => exact .ite (.applied (.http push enabled own hp hq)) (.badValue _)

-- A password is set, or is no entry of the type at all. No password is a bad one.
theorem twin_entry_password {p q : Text} (h : a.Twin b) (hp : p ≠ []) (hq : q ≠ []) :
    (∃ c d, a.entry "password" p = .applied c ∧ b.entry "password" q = .applied d ∧ c.Twin d) ∨
      a.entry "password" p = .unknownKey ∧ b.entry "password" q = .unknownKey := by
  cases h with
  | same =>
    obtain ⟨push, enabled, settings⟩ := a
    cases settings with
    | http own => exact .inl ⟨_, _, rfl, rfl, .http push enabled own hp hq⟩
    | dir | sharedDir | daemon | plain => exact .inr ⟨rfl, rfl⟩
  | http push enabled own _ _ => exact .inl ⟨_, _, rfl, rfl, .http push enabled own hp hq⟩

theorem twin_applyEntry {e e' : Text × Text} (h : EntryTwin e e') :
    Act.Twin Twin (fun _ _ => True) (applyEntry e.1 e.2) (applyEntry e'.1 e'.2) := by
  refine .bind .get fun a b hab => ?_
  cases h with
  | same =>
    have hentry := twin_entry hab e.1 e.2
    generalize a.entry e.1 e.2 = first at hentry
    generalize b.entry e.1 e.2 = second at hentry
    cases hentry with
    | applied h => exact .modify fun _ _ _ => h
    | badValue why => exact .bind (.tell _) fun _ _ _ => .fail _
    | unknownKey =>
      dsimp only
      rw [hab.tag_eq]
      exact .bind (.tell _) fun _ _ _ => .fail _
  | password hp hq =>
    dsimp only
    rcases twin_entry_password hab hp hq with ⟨c, d, ha, hb, hcd⟩ | ⟨ha, hb⟩
    · rw [ha, hb]
      exact .modify fun _ _ _ => hcd
    · rw [ha, hb]
      dsimp only
      rw [hab.tag_eq]
      exact .bind (.tell _) fun _ _ _ => .fail _

theorem twin_configure {entries entries' : List (Text × Text)}
    (h : List.Forall₂ EntryTwin entries entries') :
    Act.Twin Twin (fun _ _ => True) (configure entries) (configure entries') := by
  refine .bind .get fun a b hab => ?_
  rw [hab.tag_eq, h.length_eq]
  refine .within _ _ _ (.bind (.forM (fun _ _ he => twin_applyEntry he) h) fun _ _ _ => ?_)
  refine .bind .get fun c d hcd => ?_
  rw [hcd.check_eq]
  cases d.check with
  | ok => exact .pure trivial
  | error why => exact .fail _

end CacheConf

structure Held.Twin (a b : Held) : Prop where
  conf : a.conf.Twin b.conf
  serial : a.serial = b.serial

abbrev Slot.Twin : Slot → Slot → Prop := Option.Rel Held.Twin

structure Tiers.Twin (a b : Tiers) : Prop where
  instantiator : a.instantiator = b.instantiator
  registry : a.registry = b.registry
  localHeld : a.localHeld.Twin b.localHeld
  remoteHeld : Slot.Twin a.remoteHeld b.remoteHeld

namespace Slot

variable {a b : Slot}

theorem twin_refl (slot : Slot) : slot.Twin slot := by
  cases slot with
  | none => exact .none
  | some held => exact .some ⟨.same held.conf, rfl⟩

theorem twin_instantiate {σ τ : Type} {R : σ → τ → Prop} (inst : Instantiator) (tag : CacheTag) :
    Act.Twin R (fun a b => a = b) (instantiate inst tag : Act σ CacheConf)
      (instantiate inst tag : Act τ CacheConf) := by
  unfold instantiate
  split
  · exact .bind (.tell _) fun _ _ _ => .fail _
  · exact .fail _
  · exact .fail _
  · split
    · exact .pure rfl
    · exact .fail _

theorem twin_replace (inst : Instantiator) (tier : CacheTier) (tag : CacheTag) (h : a.Twin b) :
    Act.Twin Slot.Twin Held.Twin (replace inst tier tag a) (replace inst tier tag b) := by
  refine .bind (twin_instantiate inst tag) ?_
  rintro conf _ rfl
  cases h with
  | none =>
    exact .bind (.modify fun _ _ _ => .some ⟨.same _, rfl⟩) fun _ _ _ => .pure ⟨.same _, rfl⟩
  | some hheld =>
    dsimp only
    rw [hheld.conf.tag_eq, hheld.serial]
    exact .bind (.tell _) fun _ _ _ => .bind (.tell _) fun _ _ _ =>
      .bind (.modify fun _ _ _ => .some ⟨.same _, rfl⟩) fun _ _ _ => .pure ⟨.same _, rfl⟩

theorem twin_select (inst : Instantiator) (tier : CacheTier) (tag : CacheTag) :
    Act.Twin Slot.Twin Held.Twin (select inst tier tag) (select inst tier tag) := by
  refine .bind .get fun a b hab => ?_
  cases hab with
  | none => exact twin_replace inst tier tag .none
  | some hheld =>
    dsimp only
    rw [hheld.conf.isA_eq]
    split
    · exact .pure hheld
    · exact twin_replace inst tier tag (.some hheld)

theorem twin_request (inst : Instantiator) (tier : CacheTier) (tag : CacheTag) :
    Act.Twin Slot.Twin Held.Twin (request inst tier tag) (request inst tier tag) := by
  unfold request
  split
  · exact .bind (Q := fun _ _ => True) (.fail _) fun _ _ _ => twin_select inst tier tag
  · exact twin_select inst tier tag

theorem twin_mutate {held held' : Held} {mutator mutator' : Mutator} (hheld : held.Twin held')
    (hmutator : Act.Twin CacheConf.Twin (fun _ _ => True) mutator mutator') :
    Act.Twin Slot.Twin Held.Twin (mutate held mutator) (mutate held' mutator') := by
  intro s t hst
  have hafter := hmutator _ _ hheld.conf
  unfold mutate
  cases hfirst : mutator held.conf with
  | mk result conf events =>
    cases hsecond : mutator' held'.conf with
    | mk result' conf' events' =>
      rw [hfirst, hsecond] at hafter
      cases hafter with
      | ok _ hconf => exact .ok ⟨hconf, hheld.serial⟩ (.some ⟨hconf, hheld.serial⟩)
      | error hconf => exact .error (.some ⟨hconf, hheld.serial⟩)

theorem twin_configure (inst : Instantiator) (tier : CacheTier) (tag : CacheTag)
    {mutator mutator' : Mutator}
    (hmutator : Act.Twin CacheConf.Twin (fun _ _ => True) mutator mutator') :
    Act.Twin Slot.Twin Held.Twin (configure inst tier tag mutator)
      (configure inst tier tag mutator') :=
  .within _ _ _ (.bind (twin_request inst tier tag) fun _ _ hheld => twin_mutate hheld hmutator)

end Slot

namespace Tiers

theorem Twin.refl (tiers : Tiers) : tiers.Twin tiers :=
  ⟨rfl, rfl, ⟨.same _, rfl⟩, Slot.twin_refl _⟩

theorem Twin.slot {a b : Tiers} (h : a.Twin b) (tier : CacheTier) :
    Slot.Twin (a.slot tier) (b.slot tier) := by
  cases tier with
  | «local» => exact .some h.localHeld
  | remote => exact h.remoteHeld

theorem Twin.setSlot {a b : Tiers} {slot slot' : Slot} (h : a.Twin b) (hslot : slot.Twin slot')
    (tier : CacheTier) : (a.setSlot tier slot).Twin (b.setSlot tier slot') := by
  cases tier with
  | «local» =>
    refine ⟨h.instantiator, h.registry, ?_, h.remoteHeld⟩
    cases hslot with
    | none => exact h.localHeld
    | some hheld => exact hheld
  | remote => exact ⟨h.instantiator, h.registry, h.localHeld, hslot⟩

theorem twin_configure (tier : CacheTier) (tag : CacheTag) {mutator mutator' : Mutator}
    (hmutator : Act.Twin CacheConf.Twin (fun _ _ => True) mutator mutator') :
    Act.Twin Twin CacheConf.Twin (configure tier tag mutator) (configure tier tag mutator') := by
  refine .bind .get fun a b hab => ?_
  rw [hab.instantiator]
  refine .bind (.on (fun _ _ h => h.slot tier) (fun _ _ _ _ h hslot => h.setSlot hslot tier)
    (Slot.twin_configure _ tier tag hmutator)) fun _ _ hheld => .pure hheld.conf

end Tiers

end Foreman
