import Foreman.Proofs.Worker.Recording

namespace Foreman

variable {σ π α : Type}

namespace Workshop

-- What launchers and clients take for granted: the time can be told, and a process can be ended and
-- given up. Only building and starting may fail.
structure Dependable (shop : Workshop σ π) : Prop where
  clock : ∀ s, ∃ now, (shop.clock s).result = .ok now
  stop : ∀ p s, ∃ status, (shop.stop p s).result = .ok status
  discard : ∀ p s, (shop.discard p s).result = .ok ()

end Workshop

theorem Rehearsal.dependable : Rehearsal.workshop.Dependable where
  clock _ := ⟨_, rfl⟩
  stop _ _ := ⟨_, rfl⟩
  discard _ _ := rfl

theorem ChildWorker.dependable : ChildWorker.workshop.Dependable := by
  have hkilled (number : Nat) (yard : Yard) :
      ∃ ending after, (kill number).Yields yard (.ok ending) after := by
    unfold kill Act.Yields
    rw [Act.get_bind]
    cases yard.child? number with
    | none => exact ⟨_, _, rfl, rfl⟩
    | some child => exact ⟨_, _, rfl, rfl⟩
  refine ⟨fun _ => ⟨_, rfl⟩, ?_, ?_⟩
  · intro worker yard
    obtain ⟨spec, name, _ | number⟩ := worker
    · exact ⟨0, rfl⟩
    · obtain ⟨ending, after, hkill⟩ := hkilled number yard
      change ∃ status, ((Act.get >>= fun yard => if (yard.child? number).isNone then pure 0
        else kill number >>= fun ending => pure (ending.status : Int) : Act Yard Int)
          yard).result = .ok status
      rw [Act.get_bind, Act.ite_apply]
      split
      · exact ⟨0, rfl⟩
      · exact ⟨_, (hkill.bind ⟨rfl, rfl⟩).1⟩
  · intro worker yard
    obtain ⟨spec, name, _ | number⟩ := worker
    · rfl
    · obtain ⟨ending, after, hkill⟩ := hkilled number yard
      change ((kill number >>= fun _ => pure () : Act Yard Unit) yard).result = .ok ()
      exact (hkill.bind ⟨rfl, rfl⟩).1

variable {shop : Workshop σ π} {ledger : Ledger σ} {place left : σ} {e : Failure}
  {told more : List (LogLevel × Text)}

theorem Act.Ends.inside (ledger : Ledger σ) {act : Act σ α} {result : Except Failure α}
    (h : act.Ends ledger.place result place told) :
    (Ledger.inside act).Ends ledger result { ledger with place } told :=
  h.on

namespace Workshop

section

variable {spec : LaunchSpec}

theorem ends_build_error (h : (shop.build spec).Ends ledger.place (.error e) place told) :
    (shop.recorded.build spec).Ends ledger (.error e)
      { ledger with place, asked := ledger.asked ++ [spec] } told := by
  have hinside := Act.Ends.inside { ledger with asked := ledger.asked ++ [spec] } h
  exact .bind_of_silent ⟨⟨rfl, rfl⟩, rfl⟩ (hinside.bind_error _)

theorem ends_build_none (h : (shop.build spec).Ends ledger.place (.ok none) place told) :
    (shop.recorded.build spec).Ends ledger (.ok none)
      { ledger with place, asked := ledger.asked ++ [spec] } told := by
  have hinside := Act.Ends.inside { ledger with asked := ledger.asked ++ [spec] } h
  exact .bind_of_silent ⟨⟨rfl, rfl⟩, rfl⟩ (hinside.bind_silent ⟨⟨rfl, rfl⟩, rfl⟩)

theorem ends_build_some {p : π}
    (h : (shop.build spec).Ends ledger.place (.ok (some p)) place told) :
    (shop.recorded.build spec).Ends ledger (.ok (some ⟨ledger.built, p⟩))
      { place, asked := ledger.asked ++ [spec], built := ledger.built + 1,
        deeds := ledger.deeds ++ [(ledger.built, .built)] } told := by
  have hinside := Act.Ends.inside { ledger with asked := ledger.asked ++ [spec] } h
  exact .bind_of_silent ⟨⟨rfl, rfl⟩, rfl⟩ (hinside.bind_silent ⟨⟨rfl, rfl⟩, rfl⟩)

end

theorem ends_start_error (ledger : Ledger σ) {p : Numbered π}
    (h : (shop.start p.process).Ends ledger.place (.error e) place told) :
    (shop.recorded.start p).Ends ledger (.error e)
      { ledger with place, deeds := ledger.deeds ++ [(p.number, .refused)] } told := by
  refine .bind_error ?_ _
  rw [← List.append_nil told]
  exact (h.inside ledger).orElse_error ⟨⟨rfl, rfl⟩, rfl⟩

theorem ends_start_ok (ledger : Ledger σ) {p : Numbered π} {process : π}
    (h : (shop.start p.process).Ends ledger.place (.ok process) place told) :
    (shop.recorded.start p).Ends ledger (.ok ⟨p.number, process⟩)
      { ledger with place, deeds := ledger.deeds ++ [(p.number, .started)] } told :=
  (h.inside ledger).orElse_ok.bind_silent ⟨⟨rfl, rfl⟩, rfl⟩

theorem ends_discard (ledger : Ledger σ) {p : Numbered π}
    (h : (shop.discard p.process).Ends ledger.place (.ok ()) place told) :
    (shop.recorded.discard p).Ends ledger (.ok ())
      { ledger with place, deeds := ledger.deeds ++ [(p.number, .discarded)] } told := by
  have hinside := Act.Ends.inside
    { ledger with deeds := ledger.deeds ++ [(p.number, .discarded)] } h
  exact .bind_of_silent ⟨⟨rfl, rfl⟩, rfl⟩ hinside

theorem Dependable.ends_clock (h : shop.Dependable) (place : σ) :
    ∃ now left told, shop.clock.Ends place (.ok now) left told := by
  obtain ⟨now, hnow⟩ := h.clock place
  exact ⟨now, _, _, ⟨hnow, rfl⟩, rfl⟩

theorem Dependable.ends_discard (h : shop.Dependable) (p : π) (place : σ) :
    ∃ left told, (shop.discard p).Ends place (.ok ()) left told :=
  ⟨_, _, ⟨h.discard p place, rfl⟩, rfl⟩

theorem Dependable.yields_stop (h : shop.Dependable) (p : Numbered π) (ledger : Ledger σ) :
    ∃ status place, (shop.recorded.stop p).Yields ledger (.ok status)
      { ledger with place, deeds := ledger.deeds ++ [(p.number, .stopped)] } := by
  obtain ⟨status, hstatus⟩ := h.stop p.process ledger.place
  exact ⟨status, _, .bind ⟨rfl, rfl⟩ ⟨hstatus, rfl⟩⟩

theorem Dependable.yields_discard (h : shop.Dependable) (p : Numbered π) (ledger : Ledger σ) :
    ∃ place, (shop.recorded.discard p).Yields ledger (.ok ())
      { ledger with place, deeds := ledger.deeds ++ [(p.number, .discarded)] } := by
  obtain ⟨place, told, hdiscard⟩ := h.ends_discard p.process ledger.place
  exact ⟨place, (Workshop.ends_discard ledger hdiscard).yields⟩

end Workshop

namespace Launcher

def startingNotice (spec : Isolation) : LogLevel × Text :=
  (.info, "starting " ++ baseName ++ " process with isolation spec " ++ spec.text)

def startedNotice (spec : Isolation) (name : Text) (elapsed : Delay) : LogLevel × Text :=
  (.info, "started " ++ baseName ++ " process " ++ name ++ " (" ++ elapsed.short ++
    ") with isolation spec " ++ spec.text)

theorem ends_startOrDiscard_error (ledger : Ledger σ) {p : Numbered π}
    (hstart : (shop.start p.process).Ends ledger.place (.error e) place told)
    (hdiscard : (shop.discard p.process).Ends place (.ok ()) left more) :
    (startOrDiscard shop.recorded p).Ends ledger (.error e)
      { ledger with
        place := left, deeds := ledger.deeds ++ [(p.number, .refused), (p.number, .discarded)] }
      (told ++ more) := by
  have hgiven := Workshop.ends_discard
    { ledger with place, deeds := ledger.deeds ++ [(p.number, .refused)] } hdiscard
  refine (Workshop.ends_start_error ledger hstart).orElse_error (hgiven.bind_silent ⟨⟨rfl, ?_⟩, rfl⟩)
  simp only [Act.fail, List.append_assoc, List.cons_append, List.nil_append]

variable {launcher : Launcher} {op : BuildOp} {entryPoint directory : Text} {spec : Isolation}

theorem ends_of_no_entryPoint :
    (launcher.startDaemon shop op [] directory spec).Ends place (.error noEntryPoint) place [] :=
  .within ⟨⟨rfl, rfl⟩, rfl⟩

theorem ends_of_check_error (hentry : entryPoint ≠ []) (hcheck : spec.check = .error e) :
    (launcher.startDaemon shop op entryPoint directory spec).Ends place (.error e) place [] := by
  unfold startDaemon
  rw [hcheck, if_neg (mt List.isEmpty_iff.mp hentry)]
  exact .within ⟨⟨rfl, rfl⟩, rfl⟩

theorem stages_of_yields {client : Client π}
    (h : (launcher.startDaemon shop op entryPoint directory spec).Yields place (.ok client) left) :
    ∃ p before started now place₁ place₂ place₃,
      (shop.build (launcher.launchSpec entryPoint directory spec)).Yields place (.ok (some p))
        place₁ ∧
      shop.clock.Yields place₁ (.ok before) place₂ ∧
      (startOrDiscard shop p).Yields place₂ (.ok started) place₃ ∧
      shop.clock.Yields place₃ (.ok now) left ∧ client = ⟨spec, some started, op⟩ := by
  unfold startDaemon at h
  replace h := h.of_within
  by_cases hentry : entryPoint.isEmpty
  · simp only [hentry, ite_true] at h
    cases h.1
  simp only [hentry, Bool.false_eq_true, ite_false] at h
  obtain ⟨_, _, ⟨-, rfl⟩, h⟩ := h.of_bind
  obtain ⟨made, _, hbuild, h⟩ := h.of_bind
  cases made with
  | none => cases h.1
  | some p =>
    obtain ⟨_, _, ⟨-, rfl⟩, h⟩ := h.of_bind
    obtain ⟨before, _, hclock, h⟩ := h.of_bind
    obtain ⟨started, _, hstart, h⟩ := h.of_bind
    obtain ⟨now, _, hnow, h⟩ := h.of_bind
    obtain ⟨_, _, ⟨-, rfl⟩, h⟩ := h.of_bind
    obtain ⟨_, _, ⟨-, rfl⟩, hclient, rfl⟩ := h.of_bind
    cases hclient
    exact ⟨p, before, started, now, _, _, _, hbuild, hclock, hstart, hnow, rfl⟩

theorem client_of_yields {client : Client π}
    (h : (launcher.startDaemon shop op entryPoint directory spec).Yields place (.ok client) left) :
    client.spec = spec ∧ client.buildOp = op := by
  obtain ⟨-, -, started, -, -, -, -, -, -, -, -, rfl⟩ := stages_of_yields h
  exact ⟨rfl, rfl⟩

section

-- A valid request, and what the workshop makes of it.
variable {place₁ place₂ place₃ place₄ : σ} {told₁ told₂ told₃ told₄ : List (LogLevel × Text)}
  (hentry : entryPoint ≠ []) (hcheck : spec.check = .ok ())

include hentry hcheck

theorem ends_of_build_error
    (hbuild : (shop.build (launcher.launchSpec entryPoint directory spec)).Ends place (.error e)
      place₁ told₁) :
    (launcher.startDaemon shop op entryPoint directory spec).Ends place (.error e) place₁
      told₁ := by
  unfold startDaemon
  rw [hcheck, if_neg (mt List.isEmpty_iff.mp hentry)]
  exact .within (.bind_of_silent ⟨⟨rfl, rfl⟩, rfl⟩ (hbuild.bind_error _))

theorem ends_of_unbuilt
    (hbuild : (shop.build (launcher.launchSpec entryPoint directory spec)).Ends place (.ok none)
      place₁ told₁) :
    (launcher.startDaemon shop op entryPoint directory spec).Ends place
      (.error (nothingBuilt entryPoint)) place₁ told₁ := by
  unfold startDaemon
  rw [hcheck, if_neg (mt List.isEmpty_iff.mp hentry)]
  exact .within (.bind_of_silent ⟨⟨rfl, rfl⟩, rfl⟩ (hbuild.bind_silent ⟨⟨rfl, rfl⟩, rfl⟩))

theorem ends_of_not_started {p : π} {before : Date}
    (hbuild : (shop.build (launcher.launchSpec entryPoint directory spec)).Ends place
      (.ok (some p)) place₁ told₁)
    (hclock : shop.clock.Ends place₁ (.ok before) place₂ told₂)
    (hstart : (startOrDiscard shop p).Ends place₂ (.error e) place₃ told₃) :
    (launcher.startDaemon shop op entryPoint directory spec).Ends place (.error e) place₃
      (told₁ ++ startingNotice spec :: (told₂ ++ told₃)) := by
  unfold startDaemon
  rw [hcheck, if_neg (mt List.isEmpty_iff.mp hentry)]
  refine .within (.bind_of_silent ⟨⟨rfl, rfl⟩, rfl⟩ (hbuild.bind ?_))
  exact .bind_cons ⟨⟨rfl, rfl⟩, rfl⟩
    (hclock.bind (hstart.bind_error _))

theorem ends_of_started {p started : π} {before now : Date}
    (hbuild : (shop.build (launcher.launchSpec entryPoint directory spec)).Ends place
      (.ok (some p)) place₁ told₁)
    (hclock : shop.clock.Ends place₁ (.ok before) place₂ told₂)
    (hstart : (startOrDiscard shop p).Ends place₂ (.ok started) place₃ told₃)
    (hnow : shop.clock.Ends place₃ (.ok now) place₄ told₄) :
    (launcher.startDaemon shop op entryPoint directory spec).Ends place
      (.ok ⟨spec, some started, op⟩) place₄
      (told₁ ++ startingNotice spec :: (told₂ ++ (told₃ ++ (told₄ ++
        [startedNotice spec (shop.name started) (now.since before)])))) := by
  unfold startDaemon
  rw [hcheck, if_neg (mt List.isEmpty_iff.mp hentry)]
  refine .within (.bind_of_silent ⟨⟨rfl, rfl⟩, rfl⟩ (hbuild.bind ?_))
  refine .bind_cons ⟨⟨rfl, rfl⟩, rfl⟩
    (hclock.bind (hstart.bind (hnow.bind ?_)))
  exact .bind_silent ⟨⟨rfl, rfl⟩, rfl⟩ (.bind_of_silent ⟨⟨rfl, rfl⟩, rfl⟩ ⟨⟨rfl, rfl⟩, rfl⟩)

theorem ends_of_refused {p : π} {before : Date}
    (hbuild : (shop.build (launcher.launchSpec entryPoint directory spec)).Ends ledger.place
      (.ok (some p)) place₁ told₁)
    (hclock : shop.clock.Ends place₁ (.ok before) place₂ told₂)
    (hstart : (shop.start p).Ends place₂ (.error e) place₃ told₃)
    (hdiscard : (shop.discard p).Ends place₃ (.ok ()) place₄ told₄) :
    (launcher.startDaemon shop.recorded op entryPoint directory spec).Ends ledger (.error e)
      { place := place₄
        asked := ledger.asked ++ [launcher.launchSpec entryPoint directory spec]
        built := ledger.built + 1
        deeds := ledger.deeds ++
          [(ledger.built, .built), (ledger.built, .refused), (ledger.built, .discarded)] }
      (told₁ ++ startingNotice spec :: (told₂ ++ (told₃ ++ told₄))) := by
  have hbuilt := Workshop.ends_build_some hbuild
  have hrefused := ends_startOrDiscard_error (p := ⟨ledger.built, p⟩)
    { place := place₂
      asked := ledger.asked ++ [launcher.launchSpec entryPoint directory spec]
      built := ledger.built + 1
      deeds := ledger.deeds ++ [(ledger.built, .built)] } hstart hdiscard
  simp only [List.append_assoc, List.cons_append, List.nil_append] at hrefused
  exact ends_of_not_started hentry hcheck hbuilt (hclock.inside _) hrefused

theorem ends_of_launched {p started : π} {before now : Date}
    (hbuild : (shop.build (launcher.launchSpec entryPoint directory spec)).Ends ledger.place
      (.ok (some p)) place₁ told₁)
    (hclock : shop.clock.Ends place₁ (.ok before) place₂ told₂)
    (hstart : (shop.start p).Ends place₂ (.ok started) place₃ told₃)
    (hnow : shop.clock.Ends place₃ (.ok now) place₄ told₄) :
    (launcher.startDaemon shop.recorded op entryPoint directory spec).Ends ledger
      (.ok ⟨spec, some ⟨ledger.built, started⟩, op⟩)
      { place := place₄
        asked := ledger.asked ++ [launcher.launchSpec entryPoint directory spec]
        built := ledger.built + 1
        deeds := ledger.deeds ++ [(ledger.built, .built), (ledger.built, .started)] }
      (told₁ ++ startingNotice spec :: (told₂ ++ (told₃ ++ (told₄ ++
        [startedNotice spec (shop.name started) (now.since before)])))) := by
  have hbuilt := Workshop.ends_build_some hbuild
  have hstarted := Workshop.ends_start_ok (p := ⟨ledger.built, p⟩)
    { place := place₂
      asked := ledger.asked ++ [launcher.launchSpec entryPoint directory spec]
      built := ledger.built + 1
      deeds := ledger.deeds ++ [(ledger.built, .built)] } hstart
  simp only [List.append_assoc, List.cons_append, List.nil_append] at hstarted
  exact ends_of_started hentry hcheck hbuilt (hclock.inside _) hstarted.orElse_ok (hnow.inside _)

end

end Launcher

-- What asking for a worker comes to: a request that is not valid, nothing built, a process that
-- does not start and is given up, or a client that holds a process that is started.
inductive Launcher.Launches (launcher : Launcher) (op : BuildOp) (entryPoint directory : Text)
    (spec : Isolation) (ledger : Ledger σ) :
    Except Failure (Client (Numbered π)) → Ledger σ → Prop where
  | invalid {e : Failure} (h : entryPoint = [] ∨ spec.check = .error e) :
      Launches launcher op entryPoint directory spec ledger (.error e) ledger
  | unbuilt {e : Failure} {place : σ} :
      Launches launcher op entryPoint directory spec ledger (.error e)
        { ledger with
          place, asked := ledger.asked ++ [launcher.launchSpec entryPoint directory spec] }
  | refused {e : Failure} {place : σ} :
      Launches launcher op entryPoint directory spec ledger (.error e)
        { place
          asked := ledger.asked ++ [launcher.launchSpec entryPoint directory spec]
          built := ledger.built + 1
          deeds := ledger.deeds ++
            [(ledger.built, .built), (ledger.built, .refused), (ledger.built, .discarded)] }
  | started {p : π} {place : σ} :
      Launches launcher op entryPoint directory spec ledger (.ok ⟨spec, some ⟨ledger.built, p⟩, op⟩)
        { place
          asked := ledger.asked ++ [launcher.launchSpec entryPoint directory spec]
          built := ledger.built + 1
          deeds := ledger.deeds ++ [(ledger.built, .built), (ledger.built, .started)] }

theorem Launcher.launches (h : shop.Dependable) (launcher : Launcher) (op : BuildOp)
    (entryPoint directory : Text) (spec : Isolation) (ledger : Ledger σ) :
    launcher.Launches op entryPoint directory spec ledger
      (launcher.startDaemon shop.recorded op entryPoint directory spec ledger).result
      (launcher.startDaemon shop.recorded op entryPoint directory spec ledger).state := by
  suffices hends : ∃ result after told,
      launcher.Launches op entryPoint directory spec ledger result after ∧
      (launcher.startDaemon shop.recorded op entryPoint directory spec).Ends ledger result after
        told by
    obtain ⟨result, after, told, hlaunches, ⟨rfl, rfl⟩, -⟩ := hends
    exact hlaunches
  by_cases hentry : entryPoint = []
  · subst hentry
    exact ⟨_, _, _, .invalid (.inl rfl), ends_of_no_entryPoint⟩
  cases hcheck : spec.check with
  | error e => exact ⟨_, _, _, .invalid (.inr hcheck), ends_of_check_error hentry hcheck⟩
  | ok =>
    obtain ⟨made, place, told, hbuild⟩ :=
      (shop.build (launcher.launchSpec entryPoint directory spec)).exists_ends ledger.place
    rcases made with e | _ | p
    · exact ⟨_, _, _, .unbuilt,
        ends_of_build_error hentry hcheck (Workshop.ends_build_error hbuild)⟩
    · exact ⟨_, _, _, .unbuilt, ends_of_unbuilt hentry hcheck (Workshop.ends_build_none hbuild)⟩
    obtain ⟨before, begun, _, hclock⟩ := h.ends_clock place
    obtain ⟨tried, place, _, hstart⟩ := (shop.start p).exists_ends begun
    cases tried with
    | error e =>
      obtain ⟨left, _, hdiscard⟩ := h.ends_discard p place
      exact ⟨_, _, _, .refused, ends_of_refused hentry hcheck hbuild hclock hstart hdiscard⟩
    | ok started =>
      obtain ⟨now, left, _, hnow⟩ := h.ends_clock place
      exact ⟨_, _, _, .started, ends_of_launched hentry hcheck hbuild hclock hstart hnow⟩

end Foreman
