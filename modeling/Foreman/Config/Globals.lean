import Foreman.Cache.Policy
import Foreman.Config.Basic
import Foreman.Script.Access

namespace Foreman

open Script (Entries Value Access)

structure FieldError where
  path : List Text
  why : Text
deriving DecidableEq

def FieldError.message (e : FieldError) : Text :=
  "while processing " ++ Text.join '.' ("config" :: e.path) ++ " :\n" ++ e.why.indent "\t"

-- A part of the configuration, or the field that is wrong.
abbrev Reading (α : Type) := Except FieldError α

namespace Reading

def field {α : Type} (path : List Text) (access : Access α) : Reading α :=
  access.mapError (⟨path, ·⟩)

def entry {α : Type} (path : List Text) (entries : Entries) (name : Text)
    (access : Value → Access α) : Reading (Option α) :=
  match entries.find? name with
  | none => .ok none
  | some value => (field (path ++ [name]) (access value)).map some

end Reading

namespace CacheRequest

def ofEntries (tag : Option CacheTag) (settings : List (Text × Text)) :
    Entries → Access (Option CacheTag × List (Text × Text))
  | [] => .ok (tag, settings)
  | (key, value) :: rest => do
    let name ← Access.text key
    if name = "tag" then ofEntries (some (← Access.name value)) settings rest
    else ofEntries tag (settings ++ [(name, value.settingText)]) rest

def ofDict (value : Value) : Access CacheRequest := do
  let (tag, settings) ← ofEntries none [] (← Access.dict value)
  match tag with
  | none => .error "tag not found"
  | some .none => .error "tag cannot be none"
  | some tag =>
    if tag = .any || tag = .remote then .error ("tag cannot be abstract (" ++ tag.name ++ ")")
    else .ok ⟨tag, settings⟩

end CacheRequest

structure CacheRequests where
  localCache : Option CacheRequest := none
  remoteCache : Option CacheRequest := none
deriving DecidableEq

namespace CacheRequests

def set (requests : CacheRequests) (tier : Text) (value : Value) : Access CacheRequests :=
  if tier = "local" then do
    pure { requests with localCache := some (← CacheRequest.ofDict value) }
  else if tier = "remote" then do
    pure { requests with remoteCache := some (← CacheRequest.ofDict value) }
  else .error "unexpected tier"

-- The tiers in their order. A key that is no text is blamed on the tier before it.
def ofEntries (before : Text) (requests : CacheRequests) : Entries → Reading CacheRequests
  | [] => .ok requests
  | (key, value) :: rest => do
    let tier ← Reading.field ["caches", before] (Access.text key)
    let requests ← Reading.field ["caches", tier] (requests.set tier value)
    ofEntries tier requests rest

def ofGlobal (value : Value) : Reading CacheRequests := do
  ofEntries "" {} (← Reading.field ["caches"] (Access.dict value))

end CacheRequests

namespace Isolation

-- A directory is kept with a slash at its end.
def directoryOf (value : Value) : Access Text :=
  (Access.text value).map Text.withSlash

def variablesOf (table : Table Text) : Entries → Access (Table Text)
  | [] => .ok table
  | (key, value) :: rest => do
    let name ← Access.text key
    variablesOf (table.insert name value.settingText) rest

def environmentOf (value : Value) : Access (Table Text) := do
  variablesOf ∅ (← Access.dict value)

def ofGlobal (value : Value) : Reading Isolation := do
  let entries ← Reading.field ["worker"] (Access.dict value)
  let codePath ← Reading.entry ["worker"] entries "code_path" Access.texts
  let sharedPackages ← Reading.entry ["worker"] entries "shared_pkgs" Access.texts
  let minHeap ← Reading.entry ["worker"] entries "min_heap" Access.size
  let maxHeap ← Reading.entry ["worker"] entries "max_heap" Access.size
  let arguments ← Reading.entry ["worker"] entries "args" Access.texts
  let directory ← Reading.entry ["worker"] entries "cwd" directoryOf
  let environment ← Reading.entry ["worker"] entries "env" environmentOf
  let spec : Isolation := {
    codePath := codePath.getD []
    sharedPackages := NameSet.ofList (sharedPackages.getD [])
    minHeap := minHeap.getD 0
    maxHeap := maxHeap.getD 0
    arguments := arguments.getD []
    directory := directory.getD []
    environment := environment.getD ∅ }
  Reading.field ["worker"] (spec.check.mapError Failure.message)
  pure spec

end Isolation

namespace TraceConf

def channelsOf (value : Value) : Access (Flags Channel) := do
  let names ← Access.texts value
  let channels ← names.mapM Enumeration.ofName
  pure (Flags.ofList channels)

def ofGlobal (value : Value) : Reading TraceConf := do
  let entries ← Reading.field ["trace"] (Access.dict value)
  let file ← Reading.entry ["trace"] entries "file" Access.text
  let size ← Reading.entry ["trace"] entries "size" Access.size
  let channels ← Reading.entry ["trace"] entries "channels" channelsOf
  pure ⟨file.getD [], size.getD TraceLog.defaultSize, channels.getD Flags.all⟩

end TraceConf

namespace Config

-- A part of the configuration, which is `default` when its global is left out.
def part {α : Type} (globals : Entries) (name : Text) (default : α)
    (ofGlobal : Value → Reading α) : Reading α :=
  match globals.find? name with
  | none => .ok default
  | some value => ofGlobal value

def property (globals : Entries) (name key : Text) (table : Table Text) : Table Text :=
  match globals.find? name with
  | none => table
  | some value => table.insert key (if value.isTrue then "true" else "false")

def ofGlobals (globals : Entries) : Reading Config := do
  let caches ← part globals "caches" {} CacheRequests.ofGlobal
  let properties :=
    property globals "cache_push" CachePolicy.pushKey
      (property globals "cache_pull" CachePolicy.pullKey ∅)
  let level ← part globals "log_level" default fun value =>
    Reading.field ["log_level"] (Access.name value)
  let worker ← part globals "worker" {} Isolation.ofGlobal
  let trace ← part globals "trace" {} TraceConf.ofGlobal
  pure ⟨caches.localCache, caches.remoteCache, properties, worker, level, trace⟩

end Config

end Foreman
