import Foreman.Proofs.Trace.Calls
import Foreman.Proofs.Trace.Files

namespace Foreman

namespace TraceLog

variable {log : TraceLog} {call : Call} {record : Text}

def markByte (mark : Bool) : UInt8 := if mark then 34 else 39

def Carries (mark : Bool) (record : Text) : Prop := record.head? = some (markByte mark)

theorem markByte_injective : ∀ mark mark', markByte mark = markByte mark' → mark = mark' := by
  decide

theorem Carries.unique {mark mark' : Bool} (h : Carries mark record) (h' : Carries mark' record) :
    mark = mark' :=
  markByte_injective mark mark' (Option.some.inj (h.symm.trans h'))

-- Calls that leave the file, its size and the channels as they are.
def Call.Tracing : Call → Prop
  | .openScope .. | .note _ | .closeScope | .switch .. | .wait _ => True
  | .configure _ | .setFile _ | .begin | .surround _ => False

def allWritten (log : TraceLog) : List Call → List Text
  | [] => []
  | call :: calls => (log.written? call).toList ++ (log.apply call).allWritten calls

theorem carries_of_recordOf? {first : Bool} {words : List Text}
    (h : log.recordOf? first words = some record) : Carries log.mark record := by
  unfold recordOf? at h
  split at h
  case h_1 => cases h
  case h_2 =>
    split at h
    case isTrue =>
      cases h
      rfl
    case isFalse => cases h

theorem carries_of_written (h : log.written? call = some record) : Carries log.mark record := by
  obtain ⟨scopes, first, words, hrecord, -⟩ := write_of_written h
  exact (carries_of_recordOf? hrecord : Carries (TraceLog.mark { log with scopes }) record)

theorem apply_of_not_written (hcall : call.Tracing) (h : log.written? call = none) :
    ∃ threadKey scopes now, log.apply call = { log with threadKey, scopes, now } := by
  cases call with
  | openScope channel tag first =>
    refine ⟨log.threadKey, (log.enter channel tag).scopes, log.now, ?_⟩
    cases first with
    | none => rfl
    | some words =>
      have happly : log.apply (.openScope channel tag (some words)) =
          (log.enter channel tag).write true words := rfl
      have hrecord : (log.enter channel tag).recordOf? true words = none := h
      rw [happly, write_eq, hrecord]
      rfl
  | note words =>
    have happly : log.apply (.note words) = log.write false words := rfl
    have hrecord : log.recordOf? false words = none := h
    refine ⟨log.threadKey, log.scopes, log.now, ?_⟩
    rw [happly, write_eq, hrecord]
    rfl
  | closeScope | switch | wait => exact ⟨_, _, _, rfl⟩
  | configure | setFile | begin | surround => exact hcall.elim

theorem apply_eq_commit (h : log.written? call = some record) :
    log.apply call = commit { log with scopes := (log.apply call).scopes } record := by
  obtain ⟨hon, scopes, happly⟩ := apply_of_written h
  have hinside : TraceLog.on { log with scopes } := hon
  obtain ⟨_, _, _, hframe⟩ := commit_frame hinside record
  have hscopes : (log.apply call).scopes = scopes := by rw [happly, hframe]
  rw [hscopes, happly]

end TraceLog

namespace Journal

open TraceLog (Call Carries)

variable {opened : TraceLog} {journal : Journal} {record : Text} {call : Call}

-- What a call makes of the journal. The record that it writes, if any, is committed from within the
-- scopes that it leaves.
def follow (journal : Journal) (call : Call) : Journal :=
  match journal.log.written? call with
  | none => { journal with log := journal.log.apply call }
  | some record =>
    commit { journal with log := { journal.log with scopes := (journal.log.apply call).scopes } }
      record

def followAll (journal : Journal) (calls : List Call) : Journal := calls.foldl follow journal

theorem log_follow (journal : Journal) (call : Call) :
    (journal.follow call).log = journal.log.apply call := by
  unfold follow
  cases hwritten : journal.log.written? call with
  | none => rfl
  | some record =>
    rw [log_commit]
    exact (TraceLog.apply_eq_commit hwritten).symm

theorem records_follow (journal : Journal) (call : Call) :
    (journal.follow call).records = journal.records ++ (journal.log.written? call).toList := by
  unfold follow
  cases journal.log.written? call with
  | none => exact (List.append_nil _).symm
  | some record => exact records_commit _ record

theorem log_followAll (journal : Journal) (calls : List Call) :
    (journal.followAll calls).log = journal.log.after calls := by
  induction calls generalizing journal with
  | nil => rfl
  | cons call calls ih =>
    have hafter : journal.log.after (call :: calls) = (journal.log.apply call).after calls := rfl
    rw [hafter, ← log_follow]
    exact ih (journal.follow call)

theorem records_followAll (journal : Journal) (calls : List Call) :
    (journal.followAll calls).records = journal.records ++ journal.log.allWritten calls := by
  induction calls generalizing journal with
  | nil => exact (List.append_nil _).symm
  | cons call calls ih =>
    have hfollow : journal.followAll (call :: calls) = (journal.follow call).followAll calls := rfl
    rw [hfollow, ih, records_follow, log_follow, List.append_assoc, TraceLog.allWritten]

theorem Faithful.elsewhere (h : Faithful opened journal) (threadKey : UInt8) (scopes : List Scope)
    (now : Date) :
    Faithful opened { journal with log := { journal.log with threadKey, scopes, now } } :=
  ⟨h.on, h.file, h.sizeLimit, h.channels, h.openable, h.position, h.current, h.previous⟩

theorem Faithful.follow (h : Faithful opened journal) (hready : opened.Ready)
    (hopenable : opened.openable opened.file) (hcall : call.Tracing) :
    Faithful opened (journal.follow call) := by
  unfold Journal.follow
  cases hwritten : journal.log.written? call with
  | none =>
    obtain ⟨threadKey, scopes, now, happly⟩ := TraceLog.apply_of_not_written hcall hwritten
    simp only [happly]
    exact h.elsewhere threadKey scopes now
  | some record =>
    exact (h.elsewhere journal.log.threadKey _ journal.log.now).commit hready hopenable record

def Fits (sizeLimit : Nat) (record : Text) : Prop := 16 * record.length ≤ sizeLimit

instance (sizeLimit : Nat) (record : Text) : Decidable (Fits sizeLimit record) :=
  inferInstanceAs (Decidable (_ ≤ _))

theorem shown_of_fits {sizeLimit : Nat} (h : Fits sizeLimit record) :
    shown sizeLimit record = record :=
  if_neg (Nat.not_lt.mpr h)

theorem allShown_of_fits {sizeLimit : Nat} {records : List Text}
    (h : ∀ record ∈ records, Fits sizeLimit record) :
    allShown sizeLimit records = records.flatten := by
  induction records with
  | nil => rfl
  | cons record records ih =>
    obtain ⟨hrecord, hrecords⟩ := List.forall_mem_cons.mp h
    have hshown : allShown sizeLimit (record :: records) =
        shown sizeLimit record ++ allShown sizeLimit records := List.flatMap_cons
    rw [hshown, shown_of_fits hrecord, ih hrecords, List.flatten_cons]

-- How the records are marked. The first one of a file that was started again has the mark of the
-- file before, and all others have the mark of their file.
structure Marked (journal : Journal) : Prop where
  later : ∀ record ∈ journal.current.tail, Carries journal.log.mark record
  original : journal.previous = none → ∀ record ∈ journal.current, Carries journal.log.mark record
  first : ∀ {previous}, journal.previous = some previous →
    ∃ record, journal.current.head? = some record ∧ Carries (!journal.log.mark) record
  aside : ∀ {previous}, journal.previous = some previous →
    previous.tail ≠ [] ∧ ∀ record ∈ previous.tail, Carries (!journal.log.mark) record

theorem marked_start (log : TraceLog) : Marked (start log) := ⟨nofun, nofun, nofun, nofun⟩

-- A file is started again when there are at least two records in it. There would be room for
-- sixteen.
theorem tail_ne_nil_of_restarts (hfaithful : Faithful opened journal)
    (hcurrent : ∀ record ∈ journal.current, Fits opened.sizeLimit record)
    (hrecord : Fits opened.sizeLimit record) (hrestarts : journal.log.Restarts record) :
    journal.current.tail ≠ [] := by
  have hbeyond := (TraceLog.restarts_iff hfaithful.on record).mp hrestarts
  rw [hfaithful.sizeLimit, hfaithful.position, hfaithful.fit, shown_of_fits hrecord,
    allShown_of_fits hcurrent] at hbeyond
  unfold Fits at hrecord
  cases hlist : journal.current with
  | nil =>
    rw [hlist, List.flatten_nil, List.length_nil] at hbeyond
    omega
  | cons first rest =>
    rw [hlist] at hcurrent hbeyond
    have hfirst : 16 * first.length ≤ opened.sizeLimit := hcurrent first List.mem_cons_self
    rintro (rfl : rest = [])
    rw [List.flatten_cons, List.flatten_nil, List.append_nil] at hbeyond
    omega

theorem Marked.commit (h : Marked journal) (hcarries : Carries journal.log.mark record)
    (hfull : journal.log.Restarts record → journal.current.tail ≠ []) :
    Marked (journal.commit record) := by
  unfold Journal.commit
  dsimp only
  by_cases hrestarts : journal.log.Restarts record
  · rw [if_pos hrestarts]
    have hmark : (!(journal.log.commit record).mark) = journal.log.mark :=
      (Bool.eq_not.mpr (Ne.symm hrestarts)).symm
    refine ⟨nofun, nofun, fun _ => ⟨record, rfl, hmark ▸ hcarries⟩, ?_⟩
    rintro _ ⟨⟩
    exact ⟨hfull hrestarts, hmark ▸ h.later⟩
  · rw [if_neg hrestarts]
    have hmark : (journal.log.commit record).mark = journal.log.mark :=
      Decidable.not_not.mp hrestarts
    -- the record goes behind those of the file, or is the first one of all
    have happended {records : List Text}
        (hrecords : ∀ r ∈ records, Carries journal.log.mark r) :
        ∀ r ∈ records ++ [record], Carries journal.log.mark r := by
      intro r hr
      rcases List.mem_append.mp hr with hr | hr
      · exact hrecords r hr
      · exact List.mem_singleton.mp hr ▸ hcarries
    refine ⟨?_, ?_, ?_, ?_⟩
    · rw [hmark]
      have hlater := h.later
      cases hcurrent : journal.current with
      | nil => exact nofun
      | cons head rest =>
        rw [hcurrent] at hlater
        exact happended hlater
    · intro hprevious
      rw [hmark]
      exact happended (h.original hprevious)
    · intro previous hprevious
      obtain ⟨head, hhead, hcarried⟩ := h.first hprevious
      refine ⟨head, ?_, hmark ▸ hcarried⟩
      rw [List.head?_append, hhead, Option.some_or]
    · intro previous hprevious
      rw [hmark]
      exact h.aside hprevious

theorem Marked.follow (h : Marked journal) (hfaithful : Faithful opened journal)
    (hcall : call.Tracing)
    (hfits : ∀ record ∈ (journal.follow call).records, Fits opened.sizeLimit record) :
    Marked (journal.follow call) := by
  rw [records_follow] at hfits
  unfold Journal.follow
  cases hwritten : journal.log.written? call with
  | none =>
    obtain ⟨threadKey, scopes, now, happly⟩ := TraceLog.apply_of_not_written hcall hwritten
    simp only [happly]
    exact ⟨h.later, h.original, h.first, h.aside⟩
  | some record =>
    rw [hwritten] at hfits
    have hinside : Marked { journal with
        log := { journal.log with scopes := (journal.log.apply call).scopes } } :=
      ⟨h.later, h.original, h.first, h.aside⟩
    have hcarries : Carries journal.log.mark record := TraceLog.carries_of_written hwritten
    refine hinside.commit hcarries ?_
    refine tail_ne_nil_of_restarts (hfaithful.elsewhere journal.log.threadKey _ journal.log.now)
      (fun r hr => hfits r ?_) (hfits record ?_)
    · exact List.mem_append_left _ (List.mem_append_right _ hr)
    · exact List.mem_append_right _ (List.mem_singleton_self record)

-- The induction is on the calls. What the files hold goes along with how it is marked, as it is by
-- what they hold that a file is never started again too early.
theorem marked_followAll (hready : opened.Ready) (hopenable : opened.openable opened.file)
    {calls : List Call} (hcalls : ∀ call ∈ calls, call.Tracing)
    (hfaithful : Faithful opened journal) (hmarked : Marked journal)
    (hfits : ∀ record ∈ (journal.followAll calls).records, Fits opened.sizeLimit record) :
    Faithful opened (journal.followAll calls) ∧ Marked (journal.followAll calls) := by
  induction calls generalizing journal with
  | nil => exact ⟨hfaithful, hmarked⟩
  | cons call calls ih =>
    obtain ⟨hcall, hcalls⟩ := List.forall_mem_cons.mp hcalls
    have hrecords : (journal.followAll (call :: calls)).records =
        (journal.follow call).records ++ (journal.follow call).log.allWritten calls :=
      records_followAll (journal.follow call) calls
    have hfirst : ∀ record ∈ (journal.follow call).records, Fits opened.sizeLimit record :=
      fun record hrecord => hfits record (hrecords ▸ List.mem_append_left _ hrecord)
    exact ih hcalls (hfaithful.follow hready hopenable hcall)
      (hmarked.follow hfaithful hcall hfirst) hfits

-- The records in the file that is aside, once there was a restart. A name with a NUL byte has no
-- second name to it, so that the file is emptied where it should be put aside.
def aside? (journal : Journal) : Option (List Text) :=
  journal.previous.map fun previous =>
    if journal.log.file.NulFree then previous else journal.current

theorem Faithful.aside (h : Faithful opened journal) {records : List Text}
    (hrecords : journal.aside? = some records) :
    journal.log.content? (TraceLog.asideName opened.file) =
      some (allShown opened.sizeLimit records) := by
  obtain ⟨previous, hprevious, haside⟩ := Option.map_eq_some_iff.mp hrecords
  rw [h.file] at haside
  split at haside
  case isTrue hfree =>
    cases haside
    exact h.previous hfree hprevious
  case isFalse hnul =>
    cases haside
    rw [TraceLog.content?_congr _ (TraceLog.untilNul_asideName hnul), h.current]

-- The marks tell the file from the one that is aside: all records of the file have one mark, and
-- those that are aside have the other one.
def Distinguishable (journal : Journal) : Prop :=
  ∃ mark, (∀ record ∈ journal.current, Carries mark record) ∧
    ∀ records, journal.aside? = some records → ∀ record ∈ records, Carries (!mark) record

theorem Marked.distinguishable_iff (h : Marked journal) :
    journal.Distinguishable ↔ journal.previous = none := by
  constructor
  · rintro ⟨mark, hcurrent, haside⟩
    cases hprevious : journal.previous with
    | none => rfl
    | some previous =>
      obtain ⟨first, hhead, hfirst⟩ := h.first hprevious
      obtain ⟨htail, hmarks⟩ := h.aside hprevious
      obtain ⟨last, hlast⟩ := List.exists_mem_of_ne_nil _ htail
      have hmark : mark = !journal.log.mark :=
        (hcurrent first (List.mem_of_head? hhead)).unique hfirst
      have hrecords : journal.aside? =
          some (if journal.log.file.NulFree then previous else journal.current) := by
        rw [aside?, hprevious, Option.map_some]
      have hother : (!mark) = !journal.log.mark := by
        split at hrecords
        case isTrue =>
          exact (haside previous hrecords last (List.mem_of_mem_tail hlast)).unique
            (hmarks last hlast)
        case isFalse =>
          exact (haside journal.current hrecords first (List.mem_of_head? hhead)).unique hfirst
      exact absurd (hother.trans hmark.symm) (by simp)
  · intro hprevious
    refine ⟨journal.log.mark, h.original hprevious, fun records hrecords => ?_⟩
    rw [aside?, hprevious] at hrecords
    cases hrecords

-- In every run of a trace whose size and channels stay, the records of the file have its mark, but
-- if it was started again, its first record has the mark of the file that is aside. So the marks
-- tell the two files apart exactly as long as there was no restart.
theorem marks_in_every_run {log opened : TraceLog} (hopens : log.Opens opened)
    (hready : opened.Ready) {calls : List Call} (hcalls : ∀ call ∈ calls, call.Tracing)
    (hfits : ∀ record ∈ opened.allWritten calls, Fits opened.sizeLimit record) :
    let journal := (start opened).followAll calls
    let log := opened.after calls
    journal.log = log ∧
    journal.dropped ++ journal.previous.getD [] ++ journal.current = opened.allWritten calls ∧
    log.content? opened.file = some journal.current.flatten ∧
    (∀ records, journal.aside? = some records →
      log.content? (TraceLog.asideName opened.file) = some records.flatten) ∧
    (∀ record ∈ journal.current.tail, Carries log.mark record) ∧
    (journal.previous = none → ∀ record ∈ journal.current, Carries log.mark record) ∧
    (∀ previous, journal.previous = some previous →
      (∃ first, journal.current.head? = some first ∧ Carries (!log.mark) first) ∧
      ∀ record ∈ previous.tail, Carries (!log.mark) record) ∧
    (journal.Distinguishable ↔ journal.previous = none) := by
  intro journal log
  have hopened := hopens.justOpened hready
  have hlog : journal.log = log := log_followAll (start opened) calls
  have hrecords : journal.records = opened.allWritten calls :=
    records_followAll (start opened) calls
  have hall : ∀ record ∈ journal.records, Fits opened.sizeLimit record := hrecords ▸ hfits
  obtain ⟨hfaithful, hmarked⟩ := marked_followAll hready hopened.openable hcalls
    (Faithful.start hopened) (marked_start opened) hall
  have hcurrent : ∀ record ∈ journal.current, Fits opened.sizeLimit record :=
    fun record hrecord => hall record (List.mem_append_right _ hrecord)
  have haside {records : List Text} (h : journal.aside? = some records) :
      ∀ record ∈ records, Fits opened.sizeLimit record := by
    obtain ⟨previous, hprevious, rfl⟩ := Option.map_eq_some_iff.mp h
    split
    case isTrue =>
      intro record hrecord
      refine hall record (List.mem_append_left _ (List.mem_append_right _ ?_))
      rw [hprevious]
      exact hrecord
    case isFalse => exact hcurrent
  rw [← hlog]
  refine ⟨rfl, hrecords, ?_, ?_, hmarked.later, hmarked.original, ?_, hmarked.distinguishable_iff⟩
  · rw [hfaithful.current, allShown_of_fits hcurrent]
  · intro records hrecords
    rw [hfaithful.aside hrecords, allShown_of_fits (haside hrecords)]
  · exact fun previous h => ⟨hmarked.first h, (hmarked.aside h).2⟩

theorem marks_before_first_restart :
    let log : TraceLog := { TraceLog.start ⟨0⟩ fun _ => true with sizeLimit := 4096 }
    let opened := (log.setFile "t").1
    let calls : List Call := [.openScope .default "a" (some []), .note ["x"]]
    log.Opens opened ∧ opened.Ready ∧ (∀ call ∈ calls, call.Tracing) ∧
      (∀ record ∈ opened.allWritten calls, Fits opened.sizeLimit record) ∧
      (opened.allWritten calls).length = 2 ∧ ((start opened).followAll calls).Distinguishable := by
  intro log opened calls
  have hname : ("t" : Text) ≠ log.file := nofun
  have hopens : log.Opens opened := .setFile hname rfl
  have hready : opened.Ready := ⟨Nat.le_refl 4096, rfl, nofun⟩
  have hcalls : ∀ call ∈ calls, call.Tracing :=
    List.forall_mem_cons.mpr ⟨trivial, List.forall_mem_cons.mpr ⟨trivial, nofun⟩⟩
  have hfits : ∀ record ∈ opened.allWritten calls, Fits opened.sizeLimit record := by
    decide +kernel
  obtain ⟨-, -, -, -, -, -, -, hmarks⟩ := marks_in_every_run hopens hready hcalls hfits
  exact ⟨hopens, hready, hcalls, hfits, by decide +kernel, hmarks.mpr (by decide +kernel)⟩

-- Sixteen records of the greatest length fill a file of the least size. The next one starts the
-- file again and has the mark of before, and the one behind it has the other mark.
theorem marks_of_restarted_file :
    let log : TraceLog := { TraceLog.start ⟨0⟩ fun _ => true with sizeLimit := 4096 }
    let opened := (log.setFile "t").1
    let calls : List Call :=
      .openScope .default (List.replicate 235 46) (some []) :: List.replicate 17 (.note [])
    let journal := (start opened).followAll calls
    log.Opens opened ∧ opened.Ready ∧ (∀ call ∈ calls, call.Tracing) ∧
      (∀ record ∈ opened.allWritten calls, Fits opened.sizeLimit record) ∧
      journal.previous.map (·.map List.head?) = some (List.replicate 16 (some 39)) ∧
      journal.current.map List.head? = [some 39, some 34] ∧ ¬journal.Distinguishable := by
  intro log opened calls journal
  have hname : ("t" : Text) ≠ log.file := nofun
  have hopens : log.Opens opened := .setFile hname rfl
  have hready : opened.Ready := ⟨Nat.le_refl 4096, rfl, nofun⟩
  have hcalls : ∀ call ∈ calls, call.Tracing :=
    List.forall_mem_cons.mpr ⟨trivial, fun _ hcall => List.eq_of_mem_replicate hcall ▸ trivial⟩
  have hfits : ∀ record ∈ opened.allWritten calls, Fits opened.sizeLimit record := by
    decide +kernel
  have hcurrent : journal.current.map List.head? = [some 39, some 34] := by decide +kernel
  refine ⟨hopens, hready, hcalls, hfits, by decide +kernel, hcurrent, ?_⟩
  rintro ⟨mark, hmarks, -⟩
  have hbytes : ∀ head ∈ journal.current.map List.head?, head = some (TraceLog.markByte mark) := by
    intro head hhead
    obtain ⟨record, hrecord, rfl⟩ := List.mem_map.mp hhead
    exact hmarks record hrecord
  rw [hcurrent] at hbytes
  have hfirst := hbytes (some 39) List.mem_cons_self
  have hsecond := hbytes (some 34) (List.mem_cons_of_mem _ List.mem_cons_self)
  cases hfirst.trans hsecond.symm

end Journal

end Foreman
