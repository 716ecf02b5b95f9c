import Foreman.Session.Event
import Foreman.Text.Table
import Foreman.Time.Date

namespace Foreman

-- An open scope of the trace.
structure Scope where
  tag : Text
  active : Bool

structure TraceLog where
  -- the size that the file does not exceed
  sizeLimit : Nat
  channels : Flags Channel
  -- the name of the file, empty for none; for the system it ends at its first NUL byte
  file : Text
  on : Bool
  -- how much was written since the file was started
  position : Nat
  -- the mark of the records, which changes each time the file is put aside
  mark : Bool
  -- the innermost scope first
  scopes : List Scope
  -- one byte that tells threads apart
  threadKey : UInt8
  now : Date
  -- the names that files can be opened under
  openable : Text → Bool
  -- what the files hold, in pieces; that two spellings of a path lead to one file is left out
  files : Table (Array Text)

namespace TraceLog

def defaultSize : Nat := 100 * Nat.pow 2 20

-- No room for records below this size.
def leastSize : Nat := 4096

def start (now : Date) (openable : Text → Bool) : TraceLog where
  sizeLimit := defaultSize
  channels := Flags.all
  file := ""
  on := false
  position := 0
  mark := false
  scopes := []
  threadKey := '?'
  now := now
  openable := openable
  files := ∅

def pieces? (log : TraceLog) (name : Text) : Option (Array Text) :=
  log.files.find? name.untilNul

def content? (log : TraceLog) (name : Text) : Option Text :=
  (log.pieces? name).map fun pieces => pieces.toList.flatten

def put (log : TraceLog) (name : Text) (pieces : Array Text) : TraceLog :=
  { log with files := log.files.insert name.untilNul pieces }

-- The name under which a file is put aside. With a NUL byte in front of what is added, it is the
-- name of the file itself.
def asideName (name : Text) : Text := name ++ ".1"

-- Puts the file aside, if there is one, and over what was aside before. That the system refuses to
-- rename a file is left out here, as is that it refuses to write to one.
def putAside (log : TraceLog) : TraceLog :=
  match log.pieces? log.file with
  | none => log
  | some pieces =>
    put { log with files := log.files.erase log.file.untilNul } (asideName log.file) pieces

-- Starts the file again. Nothing happens if there is no room for records, no channel to trace or
-- no file to write to.
def restart (log : TraceLog) : Except Text TraceLog :=
  if log.sizeLimit < leastSize || log.channels.isEmpty || log.file.isEmpty then .ok log
  else if log.openable log.file then
    .ok { log.putAside.put log.file #[] with position := 0, on := true }
  else .error ("cannot open " ++ log.file ++ " : No such file or directory")

def begin (log : TraceLog) : Except Text TraceLog :=
  if log.file.isEmpty then .ok log else log.restart

-- Goes on in another file. Asking for the same file changes nothing.
def setFile (log : TraceLog) (name : Text) : TraceLog × Except Text Unit :=
  if name = log.file then (log, .ok ())
  else
    let log := { log with on := false, file := name }
    match log.restart with
    | .ok log => (log, .ok ())
    | .error e => (log, .error e)

-- What stands in for a record longer than a sixteenth of the size of the file.
def giantRecord : Text := "<giant record>\n"

def fit (log : TraceLog) (record : Text) : Text :=
  if record.length ≤ log.sizeLimit / 16 then record else giantRecord

-- The file is put aside first if the record would take it beyond its size.
def makeRoom (log : TraceLog) (size : Nat) : TraceLog :=
  if log.position + size ≤ log.sizeLimit then log
  else
    let log := { log with mark := !log.mark }
    match log.restart with
    | .ok log => log
    | .error _ => log

def append (log : TraceLog) (record : Text) : TraceLog :=
  { log.put log.file (((log.pieces? log.file).getD #[]).push record) with
    position := log.position + record.length }

def commit (log : TraceLog) (record : Text) : TraceLog :=
  if log.on then
    let record := log.fit record
    (log.makeRoom record.length).append record
  else log

-- The marks of the nesting levels, repeating after nine levels.
def levelMarks : List UInt8 :=
  ['.', ',', 39, 34, 96, '~', '-', '+', '^']

-- One column for each open scope, outermost first. The first record of a scope has a star in the
-- last one.
def columns (depth : Nat) (first : Bool) : Text :=
  (List.range depth).flatMap fun i =>
    [if first && i + 1 = depth then '*' else levelMarks.getD (i % 9) '.', '\t']

-- Mark, thread and time of day in front, then the columns, the tag of the scope and the words.
def record (log : TraceLog) (first : Bool) (tag : Text) (words : List Text) : Text :=
  (if log.mark then 34 else 39) :: log.threadKey :: log.now.text 6 true ++ "\t" ++
    columns log.scopes.length first ++ tag ++ words.flatMap (32 :: ·) ++ "\n"

def write (log : TraceLog) (first : Bool) (words : List Text) : TraceLog :=
  match log.scopes with
  | [] => log
  | scope :: _ =>
    if log.on && scope.active then log.commit (log.record first scope.tag words) else log

def openScope (log : TraceLog) (channel : Channel) (tag : Text) (first : Option (List Text)) :
    TraceLog :=
  let log := { log with scopes := ⟨tag, log.channels.contains channel⟩ :: log.scopes }
  match first with
  | none => log
  | some words => log.write true words

def note (log : TraceLog) (words : List Text) : TraceLog :=
  log.write false words

def closeScope (log : TraceLog) : TraceLog :=
  { log with scopes := log.scopes.tail }

end TraceLog

end Foreman
