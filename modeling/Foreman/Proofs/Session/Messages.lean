import Foreman.Proofs.Session.Act
import Foreman.Session.Basic

namespace Foreman

namespace Session

variable {session later : Session}

def shows (session : Session) (message : LogLevel × Text) : Text :=
  if message.1.shownAt session.level && session.connected then line message.1 message.2 else []

theorem shown_report (session : Session) (level : LogLevel) (message : Text) :
    (session.report level message).2 = session.shows (level, message) := by
  unfold report shows
  dsimp only
  cases level.shownAt session.level with
  | false => rfl
  | true =>
    cases session.connected with
    | true => rfl
    | false =>
      cases hempty : line level message with
      | nil => rfl
      | cons c rest => rfl

theorem report_frame (session : Session) (level : LogLevel) (message : Text) :
    (session.report level message).1 =
      { session with trace := (session.report level message).1.trace } := by
  unfold report
  dsimp only
  cases level.shownAt session.level with
  | false => rfl
  | true => cases session.connected || (line level message).isEmpty <;> rfl

theorem shows_receive {event : Event} (h : ∀ level, event ≠ .levelSet level) :
    (session.receive event).1.shows = session.shows := by
  cases event with
  | opened | noted | closed => rfl
  | levelSet level => exact absurd rfl (h level)
  | reported level message =>
    rw [receive, report_frame]
    rfl

theorem shown_receive (session : Session) (event : Event) :
    (session.receive event).2 = event.report?.toList.flatMap session.shows := by
  cases event with
  | opened | noted | closed | levelSet => rfl
  | reported level message =>
    rw [receive, shown_report, Event.report?, Option.toList_some, List.flatMap_singleton]

-- The induction is on the events, whatever has been shown before them.
theorem shown_of_steady {events : List Event} (h : ∀ level, .levelSet level ∉ events) :
    (session.receiveAll events).2 = (events.filterMap Event.report?).flatMap session.shows := by
  suffices hfold : ∀ shown, (events.foldl
      (fun acc event => ((acc.1.receive event).1, acc.2 ++ (acc.1.receive event).2))
      (session, shown)).2 = shown ++ (events.filterMap Event.report?).flatMap session.shows from
    hfold []
  induction events generalizing session with
  | nil => exact fun shown => (List.append_nil shown).symm
  | cons event events ih =>
    intro shown
    have hevent : ∀ level, event ≠ .levelSet level := by
      rintro level rfl
      exact h level List.mem_cons_self
    have hrest : ∀ level, .levelSet level ∉ events :=
      fun level hmem => h level (List.mem_cons_of_mem event hmem)
    calc (events.foldl _ ((session.receive event).1, shown ++ (session.receive event).2)).2
      _ = shown ++ (session.receive event).2 ++
          (events.filterMap Event.report?).flatMap (session.receive event).1.shows := ih hrest _
      _ = shown ++ ((event :: events).filterMap Event.report?).flatMap session.shows := by
        rw [shows_receive hevent, shown_receive, List.append_assoc, ← List.flatMap_append,
          List.filterMap_cons]
        cases event.report? <;> rfl

end Session

end Foreman
