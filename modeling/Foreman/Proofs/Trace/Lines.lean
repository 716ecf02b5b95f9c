import Foreman.Proofs.Trace.Marks

namespace Foreman

namespace TraceLog

variable {log : TraceLog} {channel : Channel} {tag : Text} {words words' : List Text}

def opening (log : TraceLog) (channel : Channel) (tag : Text) (words : List Text) : Text :=
  (log.enter channel tag).record true tag words

def TooLong (log : TraceLog) (record : Text) : Prop :=
  log.sizeLimit / 16 < record.length

theorem record_ne_giantRecord (log : TraceLog) (first : Bool) (tag : Text) (words : List Text) :
    log.record first tag words ≠ giantRecord := by
  intro h
  have hcarries : (log.record first tag words).head? = some (markByte log.mark) := rfl
  rw [h] at hcarries
  cases hmark : log.mark with
  | true =>
    rw [hmark] at hcarries
    exact absurd hcarries (by decide)
  | false =>
    rw [hmark] at hcarries
    exact absurd hcarries (by decide)

theorem fit_eq_iff {record record' : Text} (h : record ≠ giantRecord) (h' : record' ≠ giantRecord) :
    log.fit record = log.fit record' ↔
      record = record' ∨ log.TooLong record ∧ log.TooLong record' := by
  unfold fit TooLong
  by_cases hfits : record.length ≤ log.sizeLimit / 16
  · by_cases hfits' : record'.length ≤ log.sizeLimit / 16
    · rw [if_pos hfits, if_pos hfits', or_iff_left fun hlong => Nat.not_le_of_lt hlong.1 hfits]
    · rw [if_pos hfits, if_neg hfits']
      refine iff_of_false h ?_
      rintro (rfl | hlong)
      · exact hfits' hfits
      · exact Nat.not_le_of_lt hlong.1 hfits
  · by_cases hfits' : record'.length ≤ log.sizeLimit / 16
    · rw [if_neg hfits, if_pos hfits']
      refine iff_of_false h'.symm ?_
      rintro (rfl | hlong)
      · exact hfits hfits'
      · exact Nat.not_le_of_lt hlong.2 hfits'
    · rw [if_neg hfits, if_neg hfits']
      exact iff_of_true rfl (.inr ⟨Nat.lt_of_not_ge hfits, Nat.lt_of_not_ge hfits'⟩)

theorem record_eq_iff {first : Bool} :
    log.record first tag words = log.record first tag words' ↔
      words.flatMap (32 :: ·) = words'.flatMap (32 :: ·) := by
  unfold record
  rw [List.append_left_inj, List.append_right_inj]

theorem commit_eq_of_fit_eq {record record' : Text} (h : log.fit record = log.fit record') :
    log.commit record = log.commit record' := by
  unfold commit
  rw [h]

theorem recordOf?_enter (hon : log.on) (htraced : log.channels.contains channel) (tag : Text)
    (words : List Text) :
    (log.enter channel tag).recordOf? true words = some (log.opening channel tag words) := by
  unfold recordOf? enter opening
  dsimp only
  rw [if_pos (Bool.and_eq_true_iff.mpr ⟨hon, htraced⟩)]
  rfl

theorem openScope_eq_commit (hon : log.on) (htraced : log.channels.contains channel) (tag : Text)
    (words : List Text) :
    log.openScope channel tag (some words) =
      (log.enter channel tag).commit (log.opening channel tag words) := by
  change (log.enter channel tag).write true words = _
  rw [write_eq, recordOf?_enter hon htraced]
  rfl

end TraceLog

namespace Session

variable {session : Session} {channel : Channel}

def calls (session : Session) : Event → List TraceLog.Call
  | .opened channel tag first => [.openScope channel tag first]
  | .noted words => [.note words]
  | .closed => [.closeScope]
  | .reported level message =>
    let lost := level.shownAt session.level &&
      !(session.connected || (line level message).isEmpty)
    .openScope .default "report" (some [level.name, message]) ::
      ((if lost then [TraceLog.Call.note ["cannot_report"]] else []) ++ [.closeScope])
  | .levelSet _ => []

def allCalls (session : Session) : List Event → List TraceLog.Call
  | [] => []
  | event :: events => session.calls event ++ (session.receive event).1.allCalls events

theorem trace_receive (session : Session) (event : Event) :
    (session.receive event).1.trace = session.trace.after (session.calls event) := by
  cases event with
  | reported level message =>
    unfold receive report calls
    dsimp only
    cases level.shownAt session.level with
    | false => rfl
    | true => cases session.connected || (line level message).isEmpty <;> rfl
  | opened | noted | closed | levelSet => rfl

-- The induction is on the events, whatever has been shown before them.
theorem trace_receiveAll (session : Session) (events : List Event) :
    (session.receiveAll events).1.trace = session.trace.after (session.allCalls events) := by
  unfold receiveAll
  generalize ([] : Text) = shown
  induction events generalizing session shown with
  | nil => rfl
  | cons event events ih =>
    have hafter : session.trace.after (session.allCalls (event :: events)) =
        (session.trace.after (session.calls event)).after
          ((session.receive event).1.allCalls events) := List.foldl_append
    rw [hafter, ← trace_receive]
    exact ih (session.receive event).1 (shown ++ (session.receive event).2)

-- The lines in their order, through all files that they go to.
def lines (session : Session) (events : List Event) : List Text :=
  (session.trace.allWritten (session.allCalls events)).map session.trace.fit

-- Two rows of events that start with the same scope and go on in the same way. Their lines differ
-- only if the first ones do.
theorem lines_eq_iff (hon : session.trace.on)
    (htraced : session.trace.channels.contains channel) (tag : Text) (words words' : List Text)
    (rest : List Event) :
    session.lines (.opened channel tag (some words) :: rest) =
        session.lines (.opened channel tag (some words') :: rest) ↔
      session.trace.fit (session.trace.opening channel tag words) =
        session.trace.fit (session.trace.opening channel tag words') := by
  have hlines (words : List Text) : session.lines (.opened channel tag (some words) :: rest) =
      session.trace.fit (session.trace.opening channel tag words) ::
        ((session.trace.openScope channel tag (some words)).allWritten
          ((session.receive (.opened channel tag (some words))).1.allCalls rest)).map
            session.trace.fit := by
    have hwritten : session.trace.written? (.openScope channel tag (some words)) =
        some (session.trace.opening channel tag words) :=
      TraceLog.recordOf?_enter hon htraced tag words
    change (((session.trace.written? _).toList ++ _).map _) = _
    rw [hwritten]
    rfl
  rw [hlines, hlines]
  constructor
  · intro h
    exact (List.cons.inj h).1
  · intro hfit
    have hopened : session.trace.openScope channel tag (some words) =
        session.trace.openScope channel tag (some words') := by
      rw [TraceLog.openScope_eq_commit hon htraced, TraceLog.openScope_eq_commit hon htraced]
      exact TraceLog.commit_eq_of_fit_eq hfit
    rw [hfit]
    unfold receive
    dsimp only
    rw [hopened]

end Session

end Foreman
