import Foreman.Cache.Tiers
import Foreman.Config.Globals
import Foreman.System.Descriptor

namespace Foreman

namespace Config

def unreadable (origin why : Text) : Failure :=
  .invalidArgument ("cannot read configuration from " ++ origin ++ " :\n" ++ why.indent "\t")

-- The script is run, and its globals are looked at, with the interpreter to ourselves.
def withInterpreter {σ α : Type} (act : Act σ α) : Act σ α := do
  Act.within .config "Gil::acquire" [] (pure ())
  let release : Act σ Unit := Act.within .config "Gil::release" [] (pure ())
  let a ← act.orElse fun e => do
    release
    Act.fail e
  release
  pure a

def read {σ : Type} (origin : Text) (globals : Script.Entries) : Act σ Config :=
  .within .config "Config::s_read" [origin] <| withInterpreter do
    match ofGlobals globals with
    | .ok config => pure config
    | .error e =>
      Act.note ["bad_config", e.message]
      Act.fail (unreadable origin e.message)

def unreadableFile (file why : Text) : Failure :=
  .invalidArgument ("cannot read configuration file " ++ file ++ " : " ++ why)

-- The configuration that a script in a file holds. `globals` tells what the script at a place
-- leaves behind.
def load {σ : Type} (tree : FileTree) (directory : Place) (globals : Place → Script.Entries)
    (file : Text) : Act σ Config :=
  match tree.openToRead? directory file with
  | .error why => Act.fail (unreadableFile file why)
  | .ok place => read file (globals place)

def cannotConfigure (tier : CacheTier) (why : Text) : Failure :=
  .invalidArgument ("cannot configure " ++ tier.name ++ " build cache : " ++ why)

def fill (tier : CacheTier) (request : CacheRequest) : Mutator :=
  Act.orElse (CacheConf.configure request.entries) fun e =>
    match e with
    | .plain why => Act.fail (cannotConfigure tier why)
    | e => Act.fail e

def configureTier (tier : CacheTier) (request : Option CacheRequest) : Act Tiers Unit := do
  match request with
  | none => pure ()
  | some request =>
    let _ ← Tiers.configure tier request.tag (fill tier request)

def configure (config : Config) : Act Tiers Unit :=
  .within .config "Config::configure"
      [CacheRequest.textOf config.localCache, CacheRequest.textOf config.remoteCache] do
    configureTier .local config.localCache
    configureTier .remote config.remoteCache

def start {σ : Type} (config : Config) : Act σ Unit :=
  startSession config.startParams

end Config

namespace TraceConf

-- Size and channels are taken over, and then the file is changed if one is given.
def start (conf : TraceConf) (log : TraceLog) : TraceLog × Except Text Unit :=
  let log := { log with sizeLimit := conf.size, channels := conf.channels }
  if conf.file.isEmpty then (log, .ok ()) else log.setFile conf.file

end TraceConf

end Foreman
