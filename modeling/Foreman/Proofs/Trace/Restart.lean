import Foreman.Proofs.Text.Table
import Foreman.Proofs.Text.Terminated
import Foreman.Session.TraceLog

namespace Foreman.TraceLog

variable {log after : TraceLog} {record name other content : Text}

theorem content?_congr (log : TraceLog) (h : name.untilNul = other.untilNul) :
    log.content? name = log.content? other := by
  rw [content?, pieces?, h]
  rfl

theorem content?_put (log : TraceLog) (name other : Text) (pieces : Array Text) :
    (log.put other pieces).content? name =
      if name.untilNul = other.untilNul then some pieces.toList.flatten
      else log.content? name := by
  unfold content? pieces? put
  rw [Table.find?_insert]
  split <;> rfl

theorem untilNul_asideName_ne (h : name.NulFree) :
    (asideName name).untilNul ≠ name.untilNul := by
  have haside : (asideName name).NulFree := Text.nulFree_append_iff.mpr ⟨h, by decide⟩
  rw [Text.untilNul_of_nulFree h, Text.untilNul_of_nulFree haside]
  exact fun hsame => nomatch List.append_right_eq_self.mp hsame

theorem untilNul_asideName (h : ¬name.NulFree) : (asideName name).untilNul = name.untilNul :=
  Text.untilNul_append_of_not_nulFree h _

theorem content?_append (log : TraceLog) (record : Text) :
    (log.append record).content? log.file =
      some ((log.content? log.file).getD [] ++ record) := by
  refine (content?_put log log.file log.file _).trans ?_
  rw [if_pos rfl, content?]
  cases log.pieces? log.file with
  | none => simp
  | some pieces => simp

theorem content?_append_of_ne (h : name.untilNul ≠ log.file.untilNul) (record : Text) :
    (log.append record).content? name = log.content? name :=
  (content?_put log name log.file _).trans (if_neg h)

-- There is room for records, something to trace, and a file to write to.
structure Ready (log : TraceLog) : Prop where
  room : leastSize ≤ log.sizeLimit
  traces : log.channels.isEmpty = false
  named : log.file ≠ []

-- The file is empty, and is written to. What it held is aside, unless the file has no second name.
structure Renewed (log after : TraceLog) : Prop where
  same : after = { log with files := after.files, position := 0, on := true }
  empty : after.content? log.file = some []
  aside : log.file.NulFree → ∀ {content}, log.content? log.file = some content →
    after.content? (asideName log.file) = some content

theorem ready_iff :
    log.Ready ↔
      (log.sizeLimit < leastSize || log.channels.isEmpty || log.file.isEmpty) = false := by
  simp only [Bool.or_eq_false_iff, decide_eq_false_iff_not, Nat.not_lt, List.isEmpty_eq_false_iff]
  exact ⟨fun h => ⟨⟨h.room, h.traces⟩, h.named⟩, fun h => ⟨h.1.1, h.1.2, h.2⟩⟩

theorem restart_of_not_ready (h : ¬log.Ready) : log.restart = .ok log := by
  rw [ready_iff, Bool.not_eq_false] at h
  exact if_pos h

theorem restart_of_not_openable (h : log.Ready) (hopenable : log.openable log.file = false) :
    ∃ e, log.restart = .error e := by
  unfold restart
  rw [ready_iff.mp h, hopenable]
  exact ⟨_, rfl⟩

theorem putAside_frame (log : TraceLog) :
    log.putAside = { log with files := log.putAside.files } := by
  unfold putAside
  split <;> rfl

theorem content?_putAside (h : log.content? log.file = some content) :
    log.putAside.content? (asideName log.file) = some content := by
  obtain ⟨pieces, hpieces, rfl⟩ := Option.map_eq_some_iff.mp h
  rw [putAside, hpieces]
  exact (content?_put _ _ _ _).trans (if_pos rfl)

theorem restart_of_ready (h : log.Ready) (hopenable : log.openable log.file) :
    ∃ after, log.restart = .ok after ∧ log.Renewed after := by
  unfold restart
  rw [ready_iff.mp h, hopenable]
  have hcontent (name : Text) : (log.putAside.put log.file #[]).content? name =
      if name.untilNul = log.file.untilNul then some [] else log.putAside.content? name :=
    content?_put _ _ _ _
  refine ⟨_, rfl, ?_, (hcontent log.file).trans (if_pos rfl), fun hfree _ hbefore => ?_⟩
  · unfold put
    dsimp only
    rw [putAside_frame]
  · refine (hcontent (asideName log.file)).trans ?_
    rw [if_neg (untilNul_asideName_ne hfree), content?_putAside hbefore]

-- What a record comes to that is committed to a file. It goes to the end of the file if there is
-- room for it, else to a file that was started again. If the file cannot be started again, the
-- record goes to the end of the old one all the same.
inductive Commits (log : TraceLog) (record : Text) : TraceLog → Prop where
  | fits (h : log.position + (log.fit record).length ≤ log.sizeLimit) :
      Commits log record (log.append (log.fit record))
  | restarted {after : TraceLog} (h : log.sizeLimit < log.position + (log.fit record).length)
      (hready : log.Ready) (hrenewed : Renewed { log with mark := !log.mark } after) :
      Commits log record (after.append (log.fit record))
  | stuck (h : log.sizeLimit < log.position + (log.fit record).length)
      (hstuck : ¬log.Ready ∨ log.openable log.file = false) :
      Commits log record (append { log with mark := !log.mark } (log.fit record))

theorem commits (hon : log.on) (record : Text) : log.Commits record (log.commit record) := by
  unfold commit makeRoom
  rw [if_pos hon]
  dsimp only
  by_cases hfits : log.position + (log.fit record).length ≤ log.sizeLimit
  · rw [if_pos hfits]
    exact .fits hfits
  rw [if_neg hfits]
  have hbeyond := Nat.not_le.mp hfits
  -- whether a log is ready does not depend on its mark
  have hturned : Ready { log with mark := !log.mark } ↔ log.Ready :=
    ⟨fun h => ⟨h.room, h.traces, h.named⟩, fun h => ⟨h.room, h.traces, h.named⟩⟩
  by_cases hready : log.Ready
  case neg =>
    rw [restart_of_not_ready (mt hturned.mp hready)]
    exact .stuck hbeyond (.inl hready)
  cases hopenable : log.openable log.file with
  | false =>
    obtain ⟨e, hrestart⟩ := restart_of_not_openable (hturned.mpr hready) hopenable
    rw [hrestart]
    exact .stuck hbeyond (.inr hopenable)
  | true =>
    obtain ⟨after, hrestart, hrenewed⟩ := restart_of_ready (hturned.mpr hready) hopenable
    rw [hrestart]
    exact .restarted hbeyond hready hrenewed

theorem commit_frame (hon : log.on) (record : Text) :
    ∃ files position mark, log.commit record = { log with files, position, mark } := by
  have hcommits := commits hon record
  generalize log.commit record = committed at hcommits
  cases hcommits with
  | fits | stuck => exact ⟨_, _, _, rfl⟩
  | @restarted after _ _ hrenewed =>
    have hsame : after = { log with files := after.files, position := 0, mark := !log.mark } := by
      rw [hon]
      exact hrenewed.same
    rw [hsame]
    exact ⟨_, _, _, rfl⟩

-- The file is started again for a record. The mark changes with it, and never else.
def Restarts (log : TraceLog) (record : Text) : Prop :=
  (log.commit record).mark ≠ log.mark

instance (log : TraceLog) (record : Text) : Decidable (log.Restarts record) :=
  inferInstanceAs (Decidable (_ ≠ _))

theorem restarts_iff (hon : log.on) (record : Text) :
    log.Restarts record ↔ log.sizeLimit < log.position + (log.fit record).length := by
  have hcommits := commits hon record
  unfold Restarts
  generalize log.commit record = after at hcommits
  cases hcommits with
  | fits hfits => exact iff_of_false (fun h => h rfl) (Nat.not_lt.mpr hfits)
  | restarted hbeyond _ hrenewed =>
    refine iff_of_true ?_ hbeyond
    rw [hrenewed.same]
    exact Bool.not_not_eq.mpr rfl
  | stuck hbeyond _ => exact iff_of_true (Bool.not_not_eq.mpr rfl) hbeyond

theorem length_fit_le (h : leastSize ≤ log.sizeLimit) (record : Text) :
    (log.fit record).length ≤ log.sizeLimit := by
  unfold fit
  split
  case isTrue hshort => omega
  case isFalse =>
    have hgiant : giantRecord.length = 15 := rfl
    have hleast : leastSize = 4096 := rfl
    omega

end Foreman.TraceLog
