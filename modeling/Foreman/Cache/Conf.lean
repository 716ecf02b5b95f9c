import Foreman.Cache.Tag
import Foreman.Number.Integer
import Foreman.Number.Size
import Foreman.Session.Act
import Foreman.Text.Path

namespace Foreman

-- A cache in a directory. A size of 0 is no limit.
structure DirSettings where
  dir : Text := []
  maxSize : Nat := 0
deriving DecidableEq

structure HttpSettings where
  url : Text := []
  -- accept certificates that cannot be verified
  allowUntrusted : Bool := false
  -- accept plain http
  allowInsecure : Bool := false
  user : Text := []
  password : Text := []
deriving DecidableEq

inductive CacheSettings where
  | dir (settings : DirSettings)
  | sharedDir (settings : DirSettings) (group : Text)
  | http (settings : HttpSettings)
  | daemon (service : Text)
  -- an implementation of a type that has no settings of its own
  | plain (tag : CacheTag)
deriving DecidableEq

structure CacheConf where
  -- what enters the cache is also stored there, as the tier decides
  push : Bool := false
  enabled : Bool := true
  settings : CacheSettings
deriving DecidableEq

inductive EntryOutcome where
  | applied (conf : CacheConf)
  | unknownKey
  | badValue (why : Text)

namespace CacheConf

def tag (conf : CacheConf) : CacheTag :=
  match conf.settings with
  | .dir _ => .dir
  | .sharedDir _ _ => .sharedDir
  | .http _ => .http
  | .daemon _ => .daemon
  | .plain tag => tag

def isA (conf : CacheConf) (ancestor : CacheTag) : Bool :=
  conf.tag.isA ancestor

-- A fresh configuration of a type. The unset type and the types that only group others have none.
def make (tag : CacheTag) : Except Failure CacheConf :=
  match tag with
  | .dir => .ok { settings := .dir {} }
  | .sharedDir => .ok { settings := .sharedDir {} [] }
  | .http => .ok { settings := .http {} }
  | .daemon => .ok { settings := .daemon [] }
  | .none | .any | .remote =>
    .error (.ofKind .constructionFailure
      ("cannot instantiate abstract build cache configuration type " ++ tag.name))

-- Words for yes and no, blanks around them and the case of their letters being ignored.
def readFlag (value : Text) : Option Bool :=
  let word := Text.lower (Text.strip value)
  if word = "true" || word = "1" || word = "yes" then some true
  else if word = "false" || word = "0" || word = "no" then some false
  else none

def writeFlag (value : Bool) : Text :=
  if value then "true" else "false"

def setFlag (value : Text) (set : Bool → CacheConf) : EntryOutcome :=
  match readFlag value with
  | some flag => .applied (set flag)
  | none => .badValue "not a boolean"

-- The entries of all types. The tag may be given, but only as what it is.
def commonEntry (conf : CacheConf) (key value : Text) : EntryOutcome :=
  if key = "enabled" then setFlag value fun flag => { conf with enabled := flag }
  else if key = "push" then setFlag value fun flag => { conf with push := flag }
  else if key = "tag" then
    match (Enumeration.ofName value : Except Text CacheTag) with
    | .error e => .badValue e
    | .ok tag =>
      if tag = conf.tag then .applied conf
      else .badValue ("tag mismatch with " ++ conf.tag.name)
  else .unknownKey

def dirEntry (conf : CacheConf) (dir : DirSettings) (set : DirSettings → CacheSettings)
    (key value : Text) : EntryOutcome :=
  if key = "dir" then
    .applied { conf with settings := set { dir with dir := value.withSlash } }
  else if key = "size" then
    match Size.readBytes value with
    | .ok size => .applied { conf with settings := set { dir with maxSize := size } }
    | .error e => .badValue e.message
  else commonEntry conf key value

def httpEntry (conf : CacheConf) (http : HttpSettings) (key value : Text) : EntryOutcome :=
  let set (http : HttpSettings) : CacheConf := { conf with settings := .http http }
  if key = "allow_untrusted" then
    setFlag value fun flag => set { http with allowUntrusted := flag }
  else if key = "allow_insecure_protocol" then
    setFlag value fun flag => set { http with allowInsecure := flag }
  else if key = "password" then .applied (set { http with password := value })
  else if key = "url" then .applied (set { http with url := value })
  else if key = "user" then .applied (set { http with user := value })
  else commonEntry conf key value

def entry (conf : CacheConf) (key value : Text) : EntryOutcome :=
  match conf.settings with
  | .dir dir => dirEntry conf dir .dir key value
  | .sharedDir dir group =>
    if key = "group" then .applied { conf with settings := .sharedDir dir value }
    else dirEntry conf dir (.sharedDir · group) key value
  | .http http => httpEntry conf http key value
  | .daemon _ =>
    if key = "service" then .applied { conf with settings := .daemon value }
    else commonEntry conf key value
  | .plain _ => commonEntry conf key value

def checkDir (tag : CacheTag) (dir : DirSettings) : Except Text Unit :=
  if dir.dir.isEmpty || dir.dir.isAbsolute then .ok ()
  else .error ("dir must be absolute for " ++ tag.name ++ " cache")

-- An address may be given later. Credentials come in pairs and only matter with an address.
def checkHttp (http : HttpSettings) : Except Text Unit :=
  let secure := ("https://" : Text).isPrefixOf http.url
  let insecure := ("http://" : Text).isPrefixOf http.url
  if http.url.isEmpty then .ok ()
  else if !secure && !insecure then
    .error ("url must use http or https protocol : " ++ http.url)
  else if !secure && !http.allowInsecure then
    .error ("insecure protocol requires allow_insecure_protocol : " ++ http.url)
  else if http.user.isEmpty != http.password.isEmpty then
    .error "user and password must be provided together"
  else .ok ()

def splitService (service : Text) : Option (Text × Text) :=
  let port := (service.reverse.takeWhile fun (c : UInt8) => c != ':').reverse
  if port.length = service.length then none
  else some (service.take (service.length - port.length - 1), port)

def checkService (service : Text) : Except Text Unit :=
  let noPort : Except Text Unit := .error ("service must be of the form host:port : " ++ service)
  if service.isEmpty then .ok ()
  else
    match splitService service with
    | none => noPort
    | some (host, port) =>
      if host.isEmpty then noPort
      else
        match Integer.read .u16 port false with
        | .ok n => if n = 0 then .error ("bad port in service " ++ service) else .ok ()
        | .error _ => .error ("bad port in service " ++ service)

def check (conf : CacheConf) : Except Text Unit :=
  match conf.settings with
  | .dir dir => checkDir .dir dir
  | .sharedDir dir group =>
    match checkDir .sharedDir dir with
    | .error e => .error e
    | .ok () =>
      if group.isEmpty then
        .error ("group must be specified for " ++ CacheTag.sharedDir.name ++ " cache")
      else .ok ()
  | .http http => checkHttp http
  | .daemon service => checkService service
  | .plain _ => .ok ()

def wrongValue (key value why : Text) : Failure :=
  .plain ("wrong value for entry " ++ key ++ " : " ++ value ++ " (" ++ why ++ ")")

def wrongKey (tag : CacheTag) (key : Text) : Failure :=
  .plain ("wrong key (" ++ key ++ ") for build cache of type " ++ tag.name)

def applyEntry (key value : Text) : Act CacheConf Unit := do
  let conf ← Act.get
  match conf.entry key value with
  | .applied conf => Act.modify fun _ => conf
  | .badValue why =>
    Act.note ["bad_val", key, value]
    Act.fail (wrongValue key value why)
  | .unknownKey =>
    Act.note ["bad_key", key]
    Act.fail (wrongKey conf.tag key)

def applyAll (entries : List (Text × Text)) : Act CacheConf Unit :=
  entries.forM fun e => applyEntry e.1 e.2

def checkAll : Act CacheConf Unit := do
  let conf ← Act.get
  match conf.check with
  | .ok () => pure ()
  | .error e => Act.fail (.plain e)

-- The entries in turn, then the check of the whole. What was set before a failure stays set.
def configure (entries : List (Text × Text)) : Act CacheConf Unit := do
  let conf ← Act.get
  Act.within .cache "CacheConf::config" [conf.tag.name, Decimal.digits entries.length] do
    applyAll entries
    checkAll

def dirDescription (dir : DirSettings) : List (Text × Text) :=
  [("dir_s", dir.dir), ("max_sz", Size.writeBytes dir.maxSize)]

-- Passwords are never disclosed, only that there is one.
def httpDescription (http : HttpSettings) : List (Text × Text) :=
  let shown : List (Text × Text) :=
    [("url", http.url), ("allow_untrusted", writeFlag http.allowUntrusted),
      ("allow_insecure_protocol", writeFlag http.allowInsecure), ("user", http.user)]
  if http.password.isEmpty then shown else shown ++ [(("password" : Text), ("***" : Text))]

def ownDescription (settings : CacheSettings) : List (Text × Text) :=
  match settings with
  | .dir dir => dirDescription dir
  | .sharedDir dir group => dirDescription dir ++ [(("group" : Text), group)]
  | .http http => httpDescription http
  | .daemon service => [("service", service)]
  | .plain _ => []

def description (conf : CacheConf) : List (Text × Text) :=
  let common : List (Text × Text) :=
    [("tag", conf.tag.name), ("enabled", writeFlag conf.enabled), ("push", writeFlag conf.push)]
  common ++ ownDescription conf.settings

def text (conf : CacheConf) : Text :=
  "CacheConf(" ++
    Text.intercalate "," (conf.description.map fun e => e.1 ++ "=" ++ e.2) ++ ")"

end CacheConf

end Foreman
