import Foreman.Proofs.Trace.Bound

namespace Foreman.TraceLog

def Writes (log : TraceLog) (call : Call) : Prop :=
  ∃ record front, log.written? call = some record ∧
    (log.apply call).content? log.file = some (front ++ log.fit record)

-- The trace is as it was asked for: the file is open, and the next record of a scope on one of the
-- channels is written to it, be it the one that the scope starts with or a later one.
structure Traces (log : TraceLog) (conf : TraceConf) : Prop where
  on : log.on
  file : log.file = conf.file
  content : ∃ content, log.content? conf.file = some content
  first : ∀ channel tag words, conf.channels.contains channel →
    log.Writes (.openScope channel tag (some words))
  later : ∀ channel tag words, conf.channels.contains channel →
    (log.apply (.openScope channel tag none)).Writes (.note words)

variable {log : TraceLog} {conf : TraceConf}

theorem Open.writes (h : log.Open) {call : Call} {record : Text}
    (hwritten : log.written? call = some record) : log.Writes call := by
  obtain ⟨-, scopes, happly⟩ := apply_of_written hwritten
  have hinside : Open { log with scopes } := ⟨h.on, h.named, h.openable, h.counted⟩
  obtain ⟨before, hbefore, -⟩ := h.counted
  rcases content?_commit hinside hbefore record with ⟨hcontent, -⟩ | ⟨hcontent, -⟩
  · exact ⟨record, before, hwritten, happly ▸ hcontent⟩
  · exact ⟨record, [], hwritten, happly ▸ hcontent⟩

theorem Open.traces (h : log.Open) (hfile : log.file = conf.file)
    (hchannels : log.channels = conf.channels) : log.Traces conf := by
  -- the record of a scope that was opened on one of the channels is written
  have hrecord (channel : Channel) (tag : Text) (first : Bool) (words : List Text)
      (hchannel : conf.channels.contains channel) :
      (log.enter channel tag).recordOf? first words =
        some ((log.enter channel tag).record first tag words) := by
    have hactive : (log.on && log.channels.contains channel) = true :=
      Bool.and_eq_true_iff.mpr ⟨h.on, hchannels ▸ hchannel⟩
    exact if_pos hactive
  obtain ⟨content, hcontent, -⟩ := h.counted
  refine ⟨h.on, hfile, ⟨content, hfile ▸ hcontent⟩, ?_, ?_⟩
  · intro channel tag words hchannel
    exact h.writes (hrecord channel tag true words hchannel)
  · intro channel tag words hchannel
    have hinside : (log.enter channel tag).Open := ⟨h.on, h.named, h.openable, h.counted⟩
    exact hinside.writes (hrecord channel tag false words hchannel)

theorem start_of_named (log : TraceLog) (hfile : conf.file ≠ []) :
    conf.start log =
      setFile { log with sizeLimit := conf.size, channels := conf.channels } conf.file := by
  have hnamed : ¬conf.file.isEmpty = true := fun h => hfile (List.isEmpty_iff.mp h)
  unfold TraceConf.start
  rw [if_neg hnamed]

theorem start_of_same_file (hfile : conf.file ≠ []) (hsame : conf.file = log.file) :
    conf.start log =
      ({ log with sizeLimit := conf.size, channels := conf.channels }, .ok ()) := by
  rw [start_of_named log hfile]
  exact if_pos hsame

theorem open_of_other_file (hfile : conf.file ≠ []) (hopenable : log.openable conf.file)
    (hsize : leastSize ≤ conf.size) (hchannels : conf.channels.isEmpty = false)
    (hother : conf.file ≠ log.file) :
    ∃ after : TraceLog, conf.start log = (after, .ok ()) ∧ after.Open ∧ after.file = conf.file ∧
      after.channels = conf.channels := by
  let closed : TraceLog :=
    { log with sizeLimit := conf.size, channels := conf.channels, on := false, file := conf.file }
  have hready : closed.Ready := ⟨hsize, hchannels, hfile⟩
  obtain ⟨after, hrestart, hrenewed⟩ := restart_of_ready hready hopenable
  refine ⟨after, ?_, hrenewed.isOpen hready hopenable, by rw [hrenewed.same], by rw [hrenewed.same]⟩
  rw [start_of_named log hfile, setFile, if_neg hother]
  dsimp only
  rw [hrestart]

-- Configuring the trace with a file that can be opened, room for records and channels to trace
-- never fails. It has the effect that is asked for exactly if the file is another one than before,
-- or is open already. Nothing at all is written else.
theorem traces_after_configuring (now : Date) (openable : Text → Bool) (calls : List Call)
    (conf : TraceConf) (hfile : conf.file ≠ [])
    (hopenable : ((start now openable).after calls).openable conf.file)
    (hsize : leastSize ≤ conf.size) (hchannels : conf.channels.isEmpty = false) :
    let log := (start now openable).after calls
    let started := log.apply (.configure conf)
    (conf.start log).2 = .ok () ∧
      (started.Traces conf ↔ conf.file ≠ log.file ∨ log.on) ∧
      (conf.file = log.file → log.on = false → ∀ call, started.written? call = none) := by
  intro log started
  have hsound : log.Sound := sound_after_start now openable calls
  have hstarted : started = (conf.start log).1 := rfl
  by_cases hsame : conf.file = log.file
  case neg =>
    obtain ⟨after, hstart, hopen, hnamed, htraced⟩ :=
      open_of_other_file hfile hopenable hsize hchannels hsame
    rw [hstarted, hstart]
    exact ⟨rfl, iff_of_true (hopen.traces hnamed htraced) (.inl hsame), fun h => absurd h hsame⟩
  case pos =>
    let configured : TraceLog := { log with sizeLimit := conf.size, channels := conf.channels }
    have hstart : conf.start log = (configured, .ok ()) := start_of_same_file hfile hsame
    rw [hstarted, hstart]
    refine ⟨rfl, ⟨fun h => .inr h.on, ?_⟩, ?_⟩
    · rintro (hne | hon)
      · exact absurd hsame hne
      · have hopen := hsound hon
        have hconfigured : configured.Open := ⟨hon, hopen.named, hopen.openable, hopen.counted⟩
        exact hconfigured.traces hsame.symm rfl
    · intro _ hoff call
      cases hwritten : configured.written? call with
      | none => rfl
      | some record =>
        have hon : log.on := (apply_of_written hwritten).1
        rw [hoff] at hon
        cases hon

theorem traces_after_first_configuring :
    ((start ⟨0⟩ fun _ => true).apply (.configure ⟨"t", 4096, .all⟩)).Traces ⟨"t", 4096, .all⟩ :=
  (traces_after_configuring ⟨0⟩ (fun _ => true) [] ⟨"t", 4096, .all⟩ nofun rfl (Nat.le_refl 4096)
    rfl).2.1.mpr (.inl nofun)

-- The file was refused at first, because its size left no room for records. Asked for once more
-- with a size that is large enough, it is not opened either.
theorem not_traces_after_refusal :
    let refused := (start ⟨0⟩ fun _ => true).after [.configure ⟨"t", 100, .all⟩]
    let started := refused.apply (.configure ⟨"t", 4096, .all⟩)
    refused.openable "t" ∧ leastSize ≤ 4096 ∧ (Flags.all : Flags Channel).isEmpty = false ∧
      ¬started.Traces ⟨"t", 4096, .all⟩ ∧
      started.on = false ∧ started.content? "t" = none ∧
      (started.apply (.openScope .default "a" (some []))).content? "t" = none := by
  refine ⟨rfl, Nat.le_refl 4096, rfl, fun h => ?_, rfl, rfl, rfl⟩
  cases h.on

end Foreman.TraceLog
