import Foreman.Session.Act
import Foreman.Session.TraceLog
import Foreman.Text.Shown

namespace Foreman

-- What a session is started with.
structure StartParams where
  level : LogLevel := default
  properties : Table Text := ∅

namespace StartParams

def property? (params : StartParams) (key : Text) : Option Text :=
  params.properties.find? key

def text (params : StartParams) : Text :=
  "StartParams(" ++ params.level.name ++ "," ++ Text.showTable params.properties ++ ")"

end StartParams

structure Session where
  level : LogLevel
  connected : Bool
  trace : TraceLog

namespace Session

def start (now : Date) (openable : Text → Bool) : Session :=
  ⟨default, true, .start now openable⟩

-- A message as it is shown: warnings and errors say so first.
def line (level : LogLevel) (message : Text) : Text :=
  let heading : Text :=
    match level with
    | .warn => "Warning : "
    | .error => "Error : "
    | _ => ""
  (heading ++ message).endLine

-- Reporting never disturbs the caller: a message that cannot be shown is only traced. An empty
-- one asks for no writing and cannot fail.
def report (session : Session) (level : LogLevel) (message : Text) : Session × Text :=
  let trace := session.trace.openScope .default "report" (some [level.name, message])
  if !level.shownAt session.level then ({ session with trace := trace.closeScope }, [])
  else
    let shown := line level message
    if session.connected || shown.isEmpty then ({ session with trace := trace.closeScope }, shown)
    else ({ session with trace := (trace.note ["cannot_report"]).closeScope }, [])

-- What an event does to the session, and what it shows.
def receive (session : Session) : Event → Session × Text
  | .opened channel tag first =>
    ({ session with trace := session.trace.openScope channel tag first }, [])
  | .noted words => ({ session with trace := session.trace.note words }, [])
  | .closed => ({ session with trace := session.trace.closeScope }, [])
  | .reported level message => session.report level message
  | .levelSet level => ({ session with level := level }, [])

def receiveAll (session : Session) (events : List Event) : Session × Text :=
  events.foldl
    (fun (session, shown) event =>
      let (session, more) := session.receive event
      (session, shown ++ more))
    (session, [])

end Session

def startSession {σ : Type} (params : StartParams) : Act σ Unit :=
  .within .default "start_session" [params.text] (.tell [.levelSet params.level])

end Foreman
