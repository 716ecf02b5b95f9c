import Foreman.Proofs.Trace.Restart

namespace Foreman

namespace TraceLog

inductive Opens (log : TraceLog) : TraceLog → Prop where
  | begin {opened : TraceLog} (h : log.begin = .ok opened) : Opens log opened
  | setFile {opened : TraceLog} {name : Text} (hname : name ≠ log.file)
      (h : log.setFile name = (opened, .ok ())) : Opens log opened

structure JustOpened (opened : TraceLog) : Prop where
  on : opened.on
  ready : opened.Ready
  openable : opened.openable opened.file
  position : opened.position = 0
  empty : opened.content? opened.file = some []

variable {log opened : TraceLog}

theorem justOpened_of_restart (hready : opened.Ready) (h : log.restart = .ok opened)
    (hsame : ¬log.Ready → log ≠ opened) : opened.JustOpened := by
  by_cases hlog : log.Ready
  case neg =>
    rw [restart_of_not_ready hlog] at h
    exact absurd (Except.ok.inj h) (hsame hlog)
  cases hopenable : log.openable log.file with
  | false =>
    obtain ⟨e, hrestart⟩ := restart_of_not_openable hlog hopenable
    cases hrestart.symm.trans h
  | true =>
    obtain ⟨after, hrestart, hrenewed⟩ := restart_of_ready hlog hopenable
    cases hrestart.symm.trans h
    have hfile : opened.file = log.file := by rw [hrenewed.same]
    refine ⟨by rw [hrenewed.same], hready, ?_, by rw [hrenewed.same], by rw [hfile, hrenewed.empty]⟩
    rw [hrenewed.same]
    exact hopenable

theorem Opens.justOpened (h : log.Opens opened) (hready : opened.Ready) : opened.JustOpened := by
  cases h with
  | begin h =>
    unfold TraceLog.begin at h
    split at h
    case isTrue hunnamed =>
      cases h
      exact absurd (List.isEmpty_iff.mp hunnamed) hready.named
    case isFalse =>
      exact justOpened_of_restart hready h fun hnot hsame => hnot (hsame ▸ hready)
  | setFile hname h =>
    unfold TraceLog.setFile at h
    rw [if_neg hname] at h
    dsimp only at h
    split at h
    case h_1 after hrestart =>
      cases h
      exact justOpened_of_restart hready hrestart fun hnot hsame => hnot (hsame ▸ hready)
    case h_2 => cases h

end TraceLog

-- A trace together with the records that were committed to it since its file was opened, told apart
-- by the restarts.
structure Journal where
  log : TraceLog
  -- those that no file holds any more
  dropped : List Text
  -- those between the last two restarts, once there was a restart
  previous : Option (List Text)
  -- those since the last restart
  current : List Text

namespace Journal

def start (log : TraceLog) : Journal := ⟨log, [], none, []⟩

def commit (journal : Journal) (record : Text) : Journal :=
  let log := journal.log.commit record
  if journal.log.Restarts record then
    ⟨log, journal.dropped ++ journal.previous.getD [], some journal.current, [record]⟩
  else { journal with log, current := journal.current ++ [record] }

def after (journal : Journal) (records : List Text) : Journal := records.foldl commit journal

def records (journal : Journal) : List Text :=
  journal.dropped ++ journal.previous.getD [] ++ journal.current

theorem after_cons (journal : Journal) (record : Text) (records : List Text) :
    journal.after (record :: records) = (journal.commit record).after records := rfl

theorem log_commit (journal : Journal) (record : Text) :
    (journal.commit record).log = journal.log.commit record := by
  unfold commit
  split <;> rfl

theorem records_commit (journal : Journal) (record : Text) :
    (journal.commit record).records = journal.records ++ [record] := by
  unfold commit records
  split
  · rw [Option.getD_some, List.append_assoc]
  · simp only [List.append_assoc]

theorem log_after (journal : Journal) (records : List Text) :
    (journal.after records).log = records.foldl TraceLog.commit journal.log := by
  induction records generalizing journal with
  | nil => rfl
  | cons record records ih => rw [after_cons, ih, log_commit, List.foldl_cons]

theorem records_after (journal : Journal) (records : List Text) :
    (journal.after records).records = journal.records ++ records := by
  induction records generalizing journal with
  | nil => exact (List.append_nil _).symm
  | cons record records ih =>
    rw [after_cons, ih, records_commit, List.append_assoc, List.singleton_append]

-- What a record looks like in a file of at most `sizeLimit` bytes: one that is longer than a
-- sixteenth of that is replaced.
def shown (sizeLimit : Nat) (record : Text) : Text :=
  if sizeLimit < 16 * record.length then "<giant record>\n" else record

def allShown (sizeLimit : Nat) (records : List Text) : Text := records.flatMap (shown sizeLimit)

theorem allShown_concat (sizeLimit : Nat) (records : List Text) (record : Text) :
    allShown sizeLimit (records ++ [record]) =
      allShown sizeLimit records ++ shown sizeLimit record := by
  rw [allShown, List.flatMap_append, List.flatMap_singleton, allShown]

theorem fit_eq (log : TraceLog) (record : Text) : log.fit record = shown log.sizeLimit record := by
  unfold TraceLog.fit shown
  by_cases hgiant : log.sizeLimit < 16 * record.length
  · rw [if_pos hgiant, if_neg (by omega)]
    rfl
  · rw [if_neg hgiant, if_pos (by omega)]

-- The file that is written to holds these records, all of them counted.
structure Holds (log : TraceLog) (sizeLimit : Nat) (records : List Text) : Prop where
  position : log.position = (allShown sizeLimit records).length
  content : log.content? log.file = some (allShown sizeLimit records)

theorem Holds.append {log : TraceLog} {sizeLimit : Nat} {records : List Text}
    (h : Holds log sizeLimit records) (record : Text) :
    Holds (log.append (shown sizeLimit record)) sizeLimit (records ++ [record]) where
  position := by
    rw [allShown_concat, List.length_append, ← h.position]
    rfl
  content := by
    rw [allShown_concat]
    exact (TraceLog.content?_append log _).trans (by rw [h.content]; rfl)

-- The files hold the records that they should. What else a log is made of is as it was when its
-- file was opened.
structure Faithful (opened : TraceLog) (journal : Journal) : Prop where
  on : journal.log.on
  file : journal.log.file = opened.file
  sizeLimit : journal.log.sizeLimit = opened.sizeLimit
  channels : journal.log.channels = opened.channels
  openable : journal.log.openable = opened.openable
  position : journal.log.position = (allShown opened.sizeLimit journal.current).length
  current : journal.log.content? opened.file = some (allShown opened.sizeLimit journal.current)
  previous : opened.file.NulFree → ∀ {records}, journal.previous = some records →
    journal.log.content? (TraceLog.asideName opened.file) = some (allShown opened.sizeLimit records)

variable {opened : TraceLog} {journal : Journal}

namespace Faithful

theorem start (h : opened.JustOpened) : Faithful opened (start opened) where
  on := h.on
  file := rfl
  sizeLimit := rfl
  channels := rfl
  openable := rfl
  position := h.position
  current := h.empty
  previous := nofun

theorem fit (h : Faithful opened journal) (record : Text) :
    journal.log.fit record = shown opened.sizeLimit record := by
  rw [fit_eq, h.sizeLimit]

theorem ready (h : Faithful opened journal) (hready : opened.Ready) : journal.log.Ready where
  room := h.sizeLimit ▸ hready.room
  traces := h.channels ▸ hready.traces
  named := h.file ▸ hready.named

theorem holds (h : Faithful opened journal) :
    Holds journal.log opened.sizeLimit journal.current where
  position := h.position
  content := by rw [h.file, h.current]

theorem not_stuck (h : Faithful opened journal) (hready : opened.Ready)
    (hopenable : opened.openable opened.file) :
    ¬(¬journal.log.Ready ∨ journal.log.openable journal.log.file = false) := by
  rintro (hnot | hclosed)
  · exact hnot (h.ready hready)
  · rw [h.openable, h.file, hopenable] at hclosed
    cases hclosed

theorem holds_commit (h : Faithful opened journal) (hready : opened.Ready)
    (hopenable : opened.openable opened.file) (record : Text) :
    Holds (journal.commit record).log opened.sizeLimit (journal.commit record).current := by
  have hcommits := TraceLog.commits h.on record
  have hrestarts := TraceLog.restarts_iff h.on record
  have hfit := h.fit record
  unfold Journal.commit
  generalize journal.log.commit record = log at hcommits
  cases hcommits with
  | fits hfits =>
    rw [if_neg (mt hrestarts.mp (Nat.not_lt.mpr hfits)), hfit]
    exact h.holds.append record
  | @restarted after hbeyond _ hrenewed =>
    rw [if_pos (hrestarts.mpr hbeyond), hfit]
    -- a file that was started again holds nothing until the record comes
    have hempty : Holds after opened.sizeLimit [] := by
      constructor
      · rw [hrenewed.same]
        rfl
      · rw [hrenewed.same]
        exact hrenewed.empty
    exact hempty.append record
  | stuck _ hstuck => exact absurd hstuck (h.not_stuck hready hopenable)

theorem previous_commit (h : Faithful opened journal) (hready : opened.Ready)
    (hopenable : opened.openable opened.file) (record : Text) (hfree : opened.file.NulFree)
    {records : List Text} (hrecords : (journal.commit record).previous = some records) :
    (journal.commit record).log.content? (TraceLog.asideName opened.file) =
      some (allShown opened.sizeLimit records) := by
  have hcommits := TraceLog.commits h.on record
  have hrestarts := TraceLog.restarts_iff h.on record
  have hne := TraceLog.untilNul_asideName_ne hfree
  unfold Journal.commit at hrecords ⊢
  generalize journal.log.commit record = log at hcommits hrecords
  cases hcommits with
  | fits hfits =>
    rw [if_neg (mt hrestarts.mp (Nat.not_lt.mpr hfits))] at hrecords ⊢
    rw [TraceLog.content?_append_of_ne (h.file ▸ hne), h.previous hfree hrecords]
  | @restarted after hbeyond _ hrenewed =>
    rw [if_pos (hrestarts.mpr hbeyond)] at hrecords ⊢
    cases hrecords
    have hfile : after.file = opened.file := by rw [hrenewed.same, ← h.file]
    rw [TraceLog.content?_append_of_ne (hfile ▸ hne), ← h.file]
    exact hrenewed.aside (h.file ▸ hfree) (h.file ▸ h.current)
  | stuck _ hstuck => exact absurd hstuck (h.not_stuck hready hopenable)

theorem commit (h : Faithful opened journal) (hready : opened.Ready)
    (hopenable : opened.openable opened.file) (record : Text) :
    Faithful opened (journal.commit record) := by
  obtain ⟨files, position, mark, hframe⟩ := TraceLog.commit_frame h.on record
  have hlog : (journal.commit record).log = { journal.log with files, position, mark } :=
    (log_commit journal record).trans hframe
  have hholds := h.holds_commit hready hopenable record
  have hfile : (journal.commit record).log.file = opened.file := by rw [hlog, ← h.file]
  refine ⟨?_, hfile, ?_, ?_, ?_, hholds.position, ?_,
    h.previous_commit hready hopenable record⟩
  · rw [hlog]
    exact h.on
  · rw [hlog]
    exact h.sizeLimit
  · rw [hlog]
    exact h.channels
  · rw [hlog]
    exact h.openable
  · rw [← hfile, hholds.content]

theorem after (h : Faithful opened journal) (hready : opened.Ready)
    (hopenable : opened.openable opened.file) (records : List Text) :
    Faithful opened (journal.after records) := by
  induction records generalizing journal with
  | nil => exact h
  | cons record records ih => exact ih (h.commit hready hopenable record)

end Faithful

-- From when a file is opened, it holds the records since the last restart, and the file that is
-- aside those between the last two restarts, both without a gap and in their order. Records that
-- are too long are replaced. There is a restart exactly when the next record would take the file
-- beyond its size. With a NUL byte in its name the file cannot be put aside, since its second name
-- is its own name to the system: a restart drops the records in it.
theorem files_after_every_record {log opened : TraceLog} (hopens : log.Opens opened)
    (hready : opened.Ready) (records : List Text) :
    let journal := (start opened).after records
    let log := records.foldl TraceLog.commit opened
    let aside := TraceLog.asideName opened.file
    journal.log = log ∧
    journal.dropped ++ journal.previous.getD [] ++ journal.current = records ∧
    log.content? opened.file = some (allShown opened.sizeLimit journal.current) ∧
    (opened.file.NulFree → ∀ previous, journal.previous = some previous →
      log.content? aside = some (allShown opened.sizeLimit previous)) ∧
    (¬opened.file.NulFree → log.content? aside = log.content? opened.file) ∧
    ∀ record, log.Restarts record ↔
      opened.sizeLimit <
        (allShown opened.sizeLimit journal.current ++ shown opened.sizeLimit record).length := by
  intro journal log aside
  have hopened := hopens.justOpened hready
  have hfaithful : Faithful opened journal :=
    (Faithful.start hopened).after hready hopened.openable records
  have hlog : journal.log = log := log_after (start opened) records
  refine ⟨hlog, records_after (start opened) records, ?_, fun hfree previous hprevious => ?_,
    fun hnul => ?_, fun record => ?_⟩
  · rw [← hlog, hfaithful.current]
  · rw [← hlog, hfaithful.previous hfree hprevious]
  · exact TraceLog.content?_congr log (TraceLog.untilNul_asideName hnul)
  · rw [← hlog, TraceLog.restarts_iff hfaithful.on, hfaithful.position, hfaithful.sizeLimit,
      hfaithful.fit, List.length_append]

-- Sixteen records of the greatest length fill a file of the least size, and the next one starts it
-- again.
theorem files_after_seventeen_records :
    ∃ log opened : TraceLog, ∃ record : Text,
      log = { TraceLog.start ⟨0⟩ fun _ => true with sizeLimit := 4096 } ∧
      record = List.replicate 256 46 ∧
      log.setFile "t" = (opened, .ok ()) ∧ opened.Ready ∧
      ((List.replicate 17 record).foldl TraceLog.commit opened).content? "t" = some record ∧
      ((List.replicate 17 record).foldl TraceLog.commit opened).content? "t.1" =
        some (List.replicate 16 record).flatten := by
  let log : TraceLog := { TraceLog.start ⟨0⟩ fun _ => true with sizeLimit := 4096 }
  have hname : ("t" : Text) ≠ log.file := nofun
  have hopen : log.setFile "t" = ((log.setFile "t").1, .ok ()) := rfl
  have hready : (log.setFile "t").1.Ready := ⟨Nat.le_refl 4096, rfl, nofun⟩
  obtain ⟨-, -, hcurrent, hprevious, -⟩ := files_after_every_record (.setFile hname hopen) hready
    (List.replicate 17 (List.replicate 256 46))
  have hshown : shown (log.setFile "t").1.sizeLimit (List.replicate 256 46) =
      List.replicate 256 46 := by decide +kernel
  have hfree : Text.NulFree "t" := by decide
  refine ⟨log, _, _, rfl, rfl, hopen, hready, hcurrent.trans ?_,
    (hprevious hfree (List.replicate 16 (List.replicate 256 46)) ?_).trans ?_⟩
  · decide +kernel
  · decide +kernel
  · rw [allShown, List.flatMap_replicate, hshown]

-- The same records under a name with a NUL byte. The first sixteen are in no file afterwards.
theorem records_lost_behind_nul :
    let log : TraceLog := { TraceLog.start ⟨0⟩ fun _ => true with sizeLimit := 4096 }
    let opened := (log.setFile "u\x00x").1
    let record : Text := List.replicate 256 46
    let written := (List.replicate 17 record).foldl TraceLog.commit opened
    log.Opens opened ∧ opened.Ready ∧ opened.file = "u\x00x" ∧
      ((start opened).after (List.replicate 17 record)).previous =
        some (List.replicate 16 record) ∧
      TraceLog.asideName opened.file = "u\x00x.1" ∧
      written.content? "u\x00x.1" = some record ∧ written.content? "u\x00x" = some record ∧
      written.files.keys = ["u"] := by
  intro log opened record written
  have hname : ("u\x00x" : Text) ≠ log.file := by decide
  exact ⟨.setFile hname rfl, ⟨Nat.le_refl 4096, rfl, by decide⟩, rfl, by decide +kernel, by decide,
    by decide +kernel, by decide +kernel, by decide +kernel⟩

end Journal

end Foreman
