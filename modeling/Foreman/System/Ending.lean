import Foreman.Number.Decimal
import Foreman.Text.Basic

namespace Foreman

namespace Signal

def count : Nat := 65

def firstRealTime : Nat := 34

def abort : Nat := 6

def kill : Nat := 9

def terminate : Nat := 15

-- Signals that do nothing to a process that does not care, 0 being no signal at all.
def harmless : List Nat := [0, 17, 18, 23, 28]

-- Signals that only stop a process for the moment.
def stopping : List Nat := [19, 20, 21, 22]

-- Whether there is such a signal. Number 0 asks only whether one could be sent.
def isValid (signal : Int) : Bool :=
  0 ≤ signal && signal < count

def effect (signal : Nat) : Option Nat :=
  if harmless.contains signal || stopping.contains signal then none else some signal

def descriptions : List Text :=
  ["Hangup", "Interrupt", "Quit", "Illegal instruction", "Trace/breakpoint trap", "Aborted",
    "Bus error", "Floating point exception", "Killed", "User defined signal 1",
    "Segmentation fault", "User defined signal 2", "Broken pipe", "Alarm clock", "Terminated",
    "Stack fault", "Child exited", "Continued", "Stopped (signal)", "Stopped",
    "Stopped (tty input)", "Stopped (tty output)", "Urgent I/O condition",
    "CPU time limit exceeded", "File size limit exceeded", "Virtual timer expired",
    "Profiling timer expired", "Window changed", "I/O possible", "Power failure",
    "Bad system call"]

def unknown (signal : Nat) : Text :=
  "Unknown signal " ++ Decimal.digits signal

def description (signal : Nat) : Text :=
  if signal = 0 then unknown signal
  else if firstRealTime ≤ signal && signal < count then
    "Real-time signal " ++ Decimal.digits (signal - firstRealTime)
  else (descriptions[signal - 1]?).getD (unknown signal)

def text (signal : Nat) : Text :=
  Decimal.digits signal ++ "-" ++ description signal

end Signal

inductive Ending where
  | exited (code : Nat)
  | signaled (signal : Nat)
  -- stopped for the moment, for instance
  | other
deriving DecidableEq, Repr

namespace Ending

-- The ending told by the status of a process that was waited for. Its lowest seven bits hold the
-- signal, and the next whole byte the exit code if there is no signal.
def ofStatus (status : Int) : Ending :=
  let signal := (status % 128).toNat
  if signal = 0 then .exited (status / 256 % 256).toNat
  else if signal = 127 then .other
  else .signaled signal

def status (ending : Ending) : Int :=
  match ending with
  | .exited code => code * 256
  | .signaled signal => signal
  | .other => 127

def isOk (ending : Ending) : Bool :=
  ending = .exited 0

-- An exit code from 128 on may be a signal that a shell passed on.
def text (ending : Ending) : Text :=
  match ending with
  | .exited code =>
    if code = 0 then "ok"
    else
      let exit : Text := "exit " ++ Decimal.digits code
      if 128 ≤ code && code < 128 + Signal.count then
        exit ++ " (could be signal " ++ Signal.text (code - 128) ++ ")"
      else exit
  | .signaled signal => "signal " ++ Signal.text signal
  | .other => "??"

end Ending

end Foreman
