import Foreman.Config.Session
import Foreman.Proofs.Trace.Restart

namespace Foreman.TraceLog

inductive Call where
  | configure (conf : TraceConf)
  | setFile (name : Text)
  | begin
  | openScope (channel : Channel) (tag : Text) (first : Option (List Text))
  | note (words : List Text)
  | closeScope
  -- another thread goes on, with scopes of its own
  | switch (threadKey : UInt8) (scopes : List Scope)
  | wait (now : Date)
  -- Other files can be opened from now on. The one that is open stays so: a program whose file
  -- cannot be opened again when it is put aside does not go on.
  | surround (openable : Text → Bool)

-- The log after a call. What a call that fails did before it failed stays.
def apply (log : TraceLog) : Call → TraceLog
  | .configure conf => (conf.start log).1
  | .setFile name => (log.setFile name).1
  | .begin =>
    match log.begin with
    | .ok log => log
    | .error _ => log
  | .openScope channel tag first => log.openScope channel tag first
  | .note words => log.note words
  | .closeScope => log.closeScope
  | .switch threadKey scopes => { log with threadKey, scopes }
  | .wait now => { log with now }
  | .surround openable =>
    { log with openable := fun name => openable name || (log.on && decide (name = log.file)) }

def after (log : TraceLog) (calls : List Call) : TraceLog :=
  calls.foldl apply log

def recordOf? (log : TraceLog) (first : Bool) (words : List Text) : Option Text :=
  match log.scopes with
  | [] => none
  | scope :: _ =>
    if log.on && scope.active then some (log.record first scope.tag words) else none

def enter (log : TraceLog) (channel : Channel) (tag : Text) : TraceLog :=
  { log with scopes := ⟨tag, log.channels.contains channel⟩ :: log.scopes }

def written? (log : TraceLog) : Call → Option Text
  | .openScope channel tag (some words) => (log.enter channel tag).recordOf? true words
  | .note words => log.recordOf? false words
  | _ => none

variable {log : TraceLog} {record : Text}

theorem write_eq (log : TraceLog) (first : Bool) (words : List Text) :
    log.write first words = (log.recordOf? first words).elim log log.commit := by
  unfold write recordOf?
  cases log.scopes with
  | nil => rfl
  | cons scope rest =>
    dsimp only
    split <;> rfl

theorem on_of_recordOf? {first : Bool} {words : List Text}
    (h : log.recordOf? first words = some record) : log.on := by
  unfold recordOf? at h
  split at h
  case h_1 => cases h
  case h_2 =>
    split at h
    case isTrue hwrites => exact (Bool.and_eq_true_iff.mp hwrites).1
    case isFalse => cases h

theorem write_of_written {call : Call} (h : log.written? call = some record) :
    ∃ scopes first words, recordOf? { log with scopes } first words = some record ∧
      log.apply call = write { log with scopes } first words := by
  cases call with
  | openScope channel tag first =>
    cases first with
    | none => cases h
    | some words => exact ⟨(log.enter channel tag).scopes, true, words, h, rfl⟩
  | note words => exact ⟨log.scopes, false, words, h, rfl⟩
  | configure | setFile | begin | closeScope | switch | wait | surround => cases h

theorem apply_of_written {call : Call} (h : log.written? call = some record) :
    log.on ∧ ∃ scopes, log.apply call = commit { log with scopes } record := by
  obtain ⟨scopes, first, words, hrecord, happly⟩ := write_of_written h
  have hon : TraceLog.on { log with scopes } := on_of_recordOf? hrecord
  refine ⟨hon, scopes, ?_⟩
  rw [happly, write_eq, hrecord]
  rfl

-- A file is open. It can be opened again, and what it holds was counted.
structure Open (log : TraceLog) : Prop where
  on : log.on
  named : log.file ≠ []
  openable : log.openable log.file
  counted : ∃ content, log.content? log.file = some content ∧ content.length = log.position

-- Records are only written to an open file.
def Sound (log : TraceLog) : Prop := log.on → log.Open

theorem Renewed.isOpen {after : TraceLog} (h : log.Renewed after) (hready : log.Ready)
    (hopenable : log.openable log.file) : after.Open := by
  have hfile : after.file = log.file := by rw [h.same]
  refine ⟨by rw [h.same], hfile ▸ hready.named, ?_, [], hfile ▸ h.empty, by rw [h.same]; rfl⟩
  rw [hfile, h.same]
  exact hopenable

theorem Open.append (h : log.Open) (record : Text) : (log.append record).Open := by
  obtain ⟨content, hcontent, hlength⟩ := h.counted
  refine ⟨h.on, h.named, h.openable, content ++ record, ?_, ?_⟩
  · have hfile : (log.append record).file = log.file := rfl
    rw [hfile, content?_append, hcontent]
    rfl
  · rw [List.length_append, hlength]
    rfl

theorem Open.commit (h : log.Open) (record : Text) : (log.commit record).Open := by
  have hcommits := commits h.on record
  generalize log.commit record = after at hcommits
  cases hcommits with
  | fits => exact h.append _
  | restarted _ hready hrenewed =>
    have hturned : Ready { log with mark := !log.mark } :=
      ⟨hready.room, hready.traces, hready.named⟩
    exact (hrenewed.isOpen hturned h.openable).append _
  | stuck =>
    have hturned : Open { log with mark := !log.mark } := ⟨h.on, h.named, h.openable, h.counted⟩
    exact hturned.append _

theorem Sound.restart {after : TraceLog} (h : log.Sound) (hrestart : log.restart = .ok after) :
    after.Sound := by
  by_cases hready : log.Ready
  case neg =>
    cases (restart_of_not_ready hready).symm.trans hrestart
    exact h
  cases hopenable : log.openable log.file with
  | false =>
    obtain ⟨e, herror⟩ := restart_of_not_openable hready hopenable
    cases herror.symm.trans hrestart
  | true =>
    obtain ⟨renewed, hok, hrenewed⟩ := restart_of_ready hready hopenable
    cases hok.symm.trans hrestart
    exact fun _ => hrenewed.isOpen hready hopenable

theorem Sound.setFile (h : log.Sound) (name : Text) : (log.setFile name).1.Sound := by
  unfold TraceLog.setFile
  by_cases hname : name = log.file
  · rw [if_pos hname]
    exact h
  · rw [if_neg hname]
    have hclosed : Sound { log with on := false, file := name } := nofun
    dsimp only
    split
    case h_1 after hrestart => exact hclosed.restart hrestart
    case h_2 => exact hclosed

theorem Sound.write (h : log.Sound) (first : Bool) (words : List Text) :
    (log.write first words).Sound := by
  rw [write_eq]
  cases hrecord : log.recordOf? first words with
  | none => exact h
  | some record => exact fun _ => (h (on_of_recordOf? hrecord)).commit record

theorem Sound.apply (h : log.Sound) (call : Call) : (log.apply call).Sound := by
  cases call with
  | configure conf =>
    have hconfigured : Sound { log with sizeLimit := conf.size, channels := conf.channels } :=
      fun hon => ⟨hon, (h hon).named, (h hon).openable, (h hon).counted⟩
    unfold TraceLog.apply TraceConf.start
    dsimp only
    split
    case isTrue => exact hconfigured
    case isFalse => exact hconfigured.setFile conf.file
  | setFile name => exact h.setFile name
  | begin =>
    unfold TraceLog.apply TraceLog.begin
    dsimp only
    by_cases hunnamed : log.file.isEmpty
    · rw [if_pos hunnamed]
      exact h
    · rw [if_neg hunnamed]
      cases hrestart : log.restart with
      | ok after => exact h.restart hrestart
      | error => exact h
  | openScope channel tag first =>
    have hinside : (log.enter channel tag).Sound :=
      fun hon => ⟨hon, (h hon).named, (h hon).openable, (h hon).counted⟩
    cases first with
    | none => exact hinside
    | some words => exact hinside.write true words
  | note words => exact h.write false words
  | closeScope | switch | wait =>
    exact fun hon => ⟨hon, (h hon).named, (h hon).openable, (h hon).counted⟩
  | surround openable =>
    intro hon
    refine ⟨hon, (h hon).named, ?_, (h hon).counted⟩
    have hon' : log.on = true := hon
    change (openable log.file || (log.on && decide (log.file = log.file))) = true
    rw [hon', decide_eq_true rfl, Bool.and_self, Bool.or_true]

-- The induction is on the calls, from a log that no file is open for.
theorem sound_after_start (now : Date) (openable : Text → Bool) (calls : List Call) :
    ((start now openable).after calls).Sound := by
  have hafter (log : TraceLog) (h : log.Sound) : (log.after calls).Sound := by
    induction calls generalizing log with
    | nil => exact h
    | cons call calls ih => exact ih _ (h.apply call)
  exact hafter _ nofun

end Foreman.TraceLog
