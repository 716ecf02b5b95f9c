import Foreman.Proofs.Trace.Calls

namespace Foreman.TraceLog

variable {log : TraceLog}

theorem content?_commit (h : log.Open) {before : Text}
    (hbefore : log.content? log.file = some before) (record : Text) :
    ((log.commit record).content? log.file = some (before ++ log.fit record) ∧
      ((before ++ log.fit record).length ≤ log.sizeLimit ∨ ¬log.Ready)) ∨
    (log.commit record).content? log.file = some (log.fit record) ∧
      log.sizeLimit < (before ++ log.fit record).length ∧ log.Ready := by
  obtain ⟨_, hcontent, hlength⟩ := h.counted
  cases hbefore.symm.trans hcontent
  rw [List.length_append, hlength]
  have hcommits := commits h.on record
  generalize log.commit record = after at hcommits
  cases hcommits with
  | fits hfits =>
    refine .inl ⟨?_, .inl hfits⟩
    rw [content?_append, hcontent]
    rfl
  | @restarted after hbeyond hready hrenewed =>
    refine .inr ⟨?_, hbeyond, hready⟩
    have hfile : after.file = log.file := by rw [hrenewed.same]
    have hempty : after.content? log.file = some [] := hrenewed.empty
    rw [← hfile, content?_append, hfile, hempty]
    rfl
  | stuck hbeyond hstuck =>
    have hnot : ¬log.Ready := by
      rcases hstuck with hnot | hclosed
      · exact hnot
      · rw [h.openable] at hclosed
        cases hclosed
    refine .inl ⟨?_, .inr hnot⟩
    have hturned : content? { log with mark := !log.mark } log.file = some before := hcontent
    exact (content?_append { log with mark := !log.mark } _).trans (by rw [hturned]; rfl)

-- After every record the file is as long as it may be or shorter, exactly if the record found room
-- behind the others, or the size leaves room for records and there is a channel to trace.
theorem length_after_every_record (now : Date) (openable : Text → Bool) (calls : List Call)
    (call : Call) {record : Text}
    (h : ((start now openable).after calls).written? call = some record) :
    let log := (start now openable).after calls
    let written := log.apply call
    ∃ before content, log.content? log.file = some before ∧
      written.content? written.file = some content ∧
      (content.length ≤ written.sizeLimit ↔
        (before ++ log.fit record).length ≤ log.sizeLimit ∨
          leastSize ≤ log.sizeLimit ∧ log.channels.isEmpty = false) := by
  intro log written
  obtain ⟨hon, scopes, happly⟩ := apply_of_written h
  have hopen : log.Open := sound_after_start now openable calls hon
  have hinside : Open { log with scopes } := ⟨hon, hopen.named, hopen.openable, hopen.counted⟩
  have hwritten : written = commit { log with scopes } record := happly
  obtain ⟨files, position, mark, hframe⟩ := commit_frame hinside.on record
  have hfile : written.file = log.file := by rw [hwritten, hframe]
  have hsize : written.sizeLimit = log.sizeLimit := by rw [hwritten, hframe]
  obtain ⟨before, hbefore, -⟩ := hopen.counted
  rw [hfile, hsize, hwritten]
  rcases content?_commit hinside hbefore record with
    ⟨hcontent, hroom⟩ | ⟨hcontent, hbeyond, hready⟩
  · refine ⟨before, _, hbefore, hcontent, ⟨.inl, ?_⟩⟩
    rintro (hfits | ⟨hleast, htraces⟩)
    · exact hfits
    · rcases hroom with hfits | hnot
      · exact hfits
      · exact absurd ⟨hleast, htraces, hopen.named⟩ hnot
  · refine ⟨before, _, hbefore, hcontent, iff_of_true ?_ (.inr ⟨hready.room, hready.traces⟩)⟩
    exact length_fit_le hready.room record

theorem length_after_first_record :
    ∃ content, (((start ⟨0⟩ fun _ => true).after [.configure ⟨"t", 4096, .all⟩]).apply
        (.openScope .default "a" (some []))).content? "t" = some content ∧
      content.length ≤ 4096 := by
  obtain ⟨before, content, -, hcontent, hlength⟩ := length_after_every_record ⟨0⟩ (fun _ => true)
    [.configure ⟨"t", 4096, .all⟩] (.openScope .default "a" (some [])) rfl
  exact ⟨content, hcontent, hlength.mpr (.inr ⟨Nat.le_refl 4096, rfl⟩)⟩

-- The size is lowered while the file is open, and then there is no room for records at all. The
-- file is not started again any more, and goes on growing.
theorem length_beyond_lowered_size :
    let log := (start ⟨1⟩ fun _ => true).after [.configure ⟨"t", 4096, .all⟩,
      .openScope .default "a" (some []), .configure ⟨"", 64, .all⟩, .note ["x"], .note ["y"]]
    let written := log.apply (.note ["z"])
    (log.written? (.note ["z"])).isSome ∧ written.file = "t" ∧ written.sizeLimit = 64 ∧
      ∃ content, written.content? "t" = some content ∧ 64 < content.length := by
  refine ⟨rfl, rfl, rfl, _, rfl, ?_⟩
  decide +kernel

end Foreman.TraceLog
