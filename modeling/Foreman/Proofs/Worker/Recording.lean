import Foreman.Proofs.Session.Act
import Foreman.Worker.ChildWorker
import Foreman.Worker.Rehearsal

namespace Foreman

inductive Deed where
  | built
  | started
  -- its start failed
  | refused
  | stopped
  | discarded
deriving DecidableEq

structure Ledger (σ : Type) where
  place : σ
  -- the specs that processes were asked for with
  asked : List LaunchSpec := []
  -- how many processes were built, which is the number of the next one
  built : Nat := 0
  -- what happened to which process
  deeds : List (Nat × Deed) := []

structure Numbered (π : Type) where
  number : Nat
  process : π

variable {σ π α β γ δ : Type}

namespace Ledger

def life (ledger : Ledger σ) (number : Nat) : List Deed :=
  (ledger.deeds.filter fun e => e.1 = number).map Prod.snd

def record (number : Nat) (deed : Deed) : Act (Ledger σ) Unit :=
  Act.modify fun ledger => { ledger with deeds := ledger.deeds ++ [(number, deed)] }

def inside (act : Act σ α) : Act (Ledger σ) α :=
  Act.on place (fun ledger place => { ledger with place }) act

end Ledger

namespace Workshop

-- The workshop with a record. A call is on record even if it fails.
def recorded (shop : Workshop σ π) : Workshop (Ledger σ) (Numbered π) where
  clock := Ledger.inside shop.clock
  build spec := do
    Act.modify fun ledger => { ledger with asked := ledger.asked ++ [spec] }
    match ← Ledger.inside (shop.build spec) with
    | none => pure none
    | some p =>
      let number := (← Act.get).built
      Act.modify fun ledger => { ledger with built := number + 1 }
      Ledger.record number .built
      pure (some ⟨number, p⟩)
  start p := do
    let process ← (Ledger.inside (shop.start p.process)).orElse fun e => do
      Ledger.record p.number .refused
      Act.fail e
    Ledger.record p.number .started
    pure ⟨p.number, process⟩
  stop p := do
    Ledger.record p.number .stopped
    Ledger.inside (shop.stop p.process)
  discard p := do
    Ledger.record p.number .discarded
    Ledger.inside (shop.discard p.process)
  name p := shop.name p.process
  pid p := shop.pid p.process

-- An operation with a record does what it does without one, numbers left aside.
def Mirrors (f : α → β) (act : Act (Ledger σ) α) (plain : Act σ β) : Prop :=
  ∀ ledger, (act ledger).result.map f = (plain ledger.place).result ∧
    (act ledger).state.place = (plain ledger.place).state ∧
    (act ledger).events = (plain ledger.place).events

theorem mirrors_inside (act : Act σ α) : Mirrors id (Ledger.inside act) act := by
  intro ledger
  refine ⟨?_, rfl, rfl⟩
  simp only [Ledger.inside, Act.on]
  cases (act ledger.place).result <;> rfl

theorem Mirrors.bind {f : α → β} {g : γ → δ} {act : Act (Ledger σ) α} {plain : Act σ β}
    {next : α → Act (Ledger σ) γ} {next' : β → Act σ δ} (h : Mirrors f act plain)
    (hnext : ∀ a, Mirrors g (next a) (next' (f a))) :
    Mirrors g (act >>= next) (plain >>= next') := by
  intro ledger
  obtain ⟨hresult, hstate, hevents⟩ := h ledger
  cases hact : act ledger with
  | mk result after events =>
    cases hplain : plain ledger.place with
    | mk result' place events' =>
      rw [hact, hplain] at hresult hstate hevents
      subst hresult hstate hevents
      cases result with
      | error e =>
        rw [Act.bind_of_error hact, Act.bind_of_error hplain]
        exact ⟨rfl, rfl, rfl⟩
      | ok a =>
        rw [Act.bind_of_ok hact, Act.bind_of_ok hplain]
        obtain ⟨hresult, hstate, hevents⟩ := hnext a after
        exact ⟨hresult, hstate, congrArg _ hevents⟩

theorem Mirrors.orElse {f : α → β} {act : Act (Ledger σ) α} {plain : Act σ β}
    {handler : Failure → Act (Ledger σ) α} {handler' : Failure → Act σ β} (h : Mirrors f act plain)
    (hhandler : ∀ e, Mirrors f (handler e) (handler' e)) :
    Mirrors f (act.orElse handler) (plain.orElse handler') := by
  intro ledger
  obtain ⟨hresult, hstate, hevents⟩ := h ledger
  cases hact : act ledger with
  | mk result after events =>
    cases hplain : plain ledger.place with
    | mk result' place events' =>
      rw [hact, hplain] at hresult hstate hevents
      subst hresult hstate hevents
      cases result with
      | ok a =>
        simp only [Act.orElse, hact, hplain]
        exact ⟨rfl, rfl, rfl⟩
      | error e =>
        obtain ⟨hresult, hstate, hevents⟩ := hhandler e after
        simp only [Act.orElse, hact, hplain]
        exact ⟨hresult, hstate, congrArg _ hevents⟩

theorem Mirrors.within {f : α → β} {act : Act (Ledger σ) α} {plain : Act σ β}
    (h : Mirrors f act plain) (channel : Channel) (tag : Text) (words : List Text) :
    Mirrors f (Act.within channel tag words act) (Act.within channel tag words plain) := by
  intro ledger
  obtain ⟨hresult, hstate, hevents⟩ := h ledger
  exact ⟨hresult, hstate, by simp only [Act.within, hevents]⟩

theorem recorded_mirrors (shop : Workshop σ π) :
    Mirrors id shop.recorded.clock shop.clock ∧
    (∀ spec, Mirrors (Option.map Numbered.process) (shop.recorded.build spec) (shop.build spec)) ∧
    (∀ p, Mirrors Numbered.process (shop.recorded.start p) (shop.start p.process)) ∧
    (∀ p, Mirrors id (shop.recorded.stop p) (shop.stop p.process)) ∧
    ∀ p, Mirrors id (shop.recorded.discard p) (shop.discard p.process) := by
  refine ⟨mirrors_inside _, ?_, ?_, ?_, ?_⟩
  · intro spec ledger
    simp only [recorded, Ledger.inside, Ledger.record, Act.modify, Act.on, bind, Act.bind]
    cases shop.build spec ledger.place with
    | mk result place events =>
      rcases result with e | _ | p
      · exact ⟨rfl, rfl, rfl⟩
      · exact ⟨rfl, rfl, List.append_nil events⟩
      · exact ⟨rfl, rfl, List.append_nil events⟩
  · intro p ledger
    simp only [recorded, Ledger.inside, Ledger.record, Act.modify, Act.on, Act.fail, Act.orElse,
      bind, Act.bind]
    cases shop.start p.process ledger.place with
    | mk result place events =>
      cases result with
      | error e => exact ⟨rfl, rfl, List.append_nil events⟩
      | ok process => exact ⟨rfl, rfl, List.append_nil events⟩
  · intro p ledger
    exact mirrors_inside (shop.stop p.process) ledger
  · intro p ledger
    exact mirrors_inside (shop.discard p.process) ledger

end Workshop

-- The client with its process, the number of that left aside.
def Client.unnumbered (client : Client (Numbered π)) : Client π :=
  ⟨client.spec, client.process.map Numbered.process, client.buildOp⟩

open Workshop (Mirrors recorded_mirrors)

namespace Launcher

theorem mirrors_startOrDiscard (shop : Workshop σ π) (p : Numbered π) :
    Mirrors Numbered.process (startOrDiscard shop.recorded p)
      (startOrDiscard shop p.process) := by
  obtain ⟨-, -, hstart, -, hdiscard⟩ := recorded_mirrors shop
  exact (hstart p).orElse fun e => (hdiscard p).bind fun _ _ => ⟨rfl, rfl, rfl⟩

theorem mirrors_startDaemon (launcher : Launcher) (shop : Workshop σ π) (op : BuildOp)
    (entryPoint directory : Text) (spec : Isolation) :
    Mirrors Client.unnumbered
      (launcher.startDaemon shop.recorded op entryPoint directory spec)
      (launcher.startDaemon shop op entryPoint directory spec) := by
  obtain ⟨hclock, hbuild, -, -, -⟩ := recorded_mirrors shop
  unfold startDaemon
  refine Mirrors.within ?_ _ _ _
  by_cases hentry : entryPoint.isEmpty
  · simp only [hentry, ite_true]
    exact fun _ => ⟨rfl, rfl, rfl⟩
  simp only [hentry, Bool.false_eq_true, ite_false]
  have hcheck : Mirrors id (Act.ofExcept spec.check : Act (Ledger σ) Unit)
      (Act.ofExcept spec.check) :=
    fun _ => ⟨by simp only [Act.ofExcept]; cases spec.check <;> rfl, rfl, rfl⟩
  refine hcheck.bind fun _ => (hbuild _).bind fun made => ?_
  cases made with
  | none => exact fun _ => ⟨rfl, rfl, rfl⟩
  | some p =>
    have htell (events : List Event) :
        Mirrors id (Act.tell events : Act (Ledger σ) Unit) (Act.tell events) :=
      fun _ => ⟨rfl, rfl, rfl⟩
    refine (htell _).bind fun _ => hclock.bind fun before => ?_
    refine (mirrors_startOrDiscard shop p).bind fun process => hclock.bind fun after => ?_
    exact (htell _).bind fun _ => (htell _).bind fun _ _ => ⟨rfl, rfl, rfl⟩

end Launcher

theorem Client.mirrors_stop (shop : Workshop σ π) (client : Client (Numbered π)) :
    Mirrors (Prod.map id unnumbered) (client.stop shop.recorded) (client.unnumbered.stop shop) := by
  obtain ⟨-, -, -, hstop, hdiscard⟩ := recorded_mirrors shop
  obtain ⟨spec, _ | p, op⟩ := client
  · exact fun _ => ⟨rfl, rfl, rfl⟩
  · refine Mirrors.within ((hstop p).bind fun status => (hdiscard p).bind fun _ => ?_) _ _ _
    exact fun _ => ⟨rfl, rfl, rfl⟩

end Foreman
