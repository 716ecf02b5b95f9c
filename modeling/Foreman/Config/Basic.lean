import Foreman.Cache.Tag
import Foreman.Session.Basic
import Foreman.Worker.Isolation

namespace Foreman

-- What is asked of the cache of a tier: its type, and entries for it.
structure CacheRequest where
  tag : CacheTag
  entries : List (Text × Text)
deriving DecidableEq

namespace CacheRequest

def text (request : CacheRequest) : Text :=
  "Cache(" ++ request.tag.name ++ "," ++ Text.showPairs request.entries ++ ")"

def textOf (request : Option CacheRequest) : Text :=
  (request.getD ⟨.none, []⟩).text

end CacheRequest

structure TraceConf where
  file : Text := []
  size : Nat := TraceLog.defaultSize
  channels : Flags Channel := Flags.all
deriving DecidableEq

structure Config where
  localCache : Option CacheRequest := none
  remoteCache : Option CacheRequest := none
  properties : Table Text := ∅
  worker : Isolation := {}
  level : LogLevel := default
  trace : TraceConf := {}
deriving DecidableEq

namespace Config

def text (config : Config) : Text :=
  let item (heading : Text) (value : Option Text) : List Text :=
    value.toList.map (heading ++ ·)
  let items : List Text :=
    item "local:" (config.localCache.map CacheRequest.text) ++
    item "remote:" (config.remoteCache.map CacheRequest.text) ++
    (if config.properties.isEmpty then [] else [Text.showTable config.properties]) ++
    [config.worker.text, config.level.name]
  "Config(" ++ Text.intercalate "," items ++ ")"

def startParams (config : Config) : StartParams :=
  ⟨config.level, config.properties⟩

end Config

end Foreman
