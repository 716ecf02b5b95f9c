import Foreman.Proofs.Config.Reading
import Foreman.Proofs.Script.Dictionary
import Foreman.Proofs.Text.Table

namespace Foreman

open Script (Entries Value Access)

namespace CacheRequest

-- The entry that an entry of a dictionary is turned into. The tag is kept apart.
def settingOf (e : Value × Value) : Option (Text × Text) :=
  match e.1 with
  | .str name => if name = "tag" then none else some (name, e.2.settingText)
  | _ => none

theorem settingOf_tag (value : Value) : settingOf (.str "tag", value) = none := rfl

theorem settingOf_of_ne {name : Text} (h : name ≠ "tag") (value : Value) :
    settingOf (.str name, value) = some (name, value.settingText) :=
  if_neg h

theorem key_of_settingOf {e : Value × Value} {entry : Text × Text} (h : settingOf e = some entry) :
    e.1 = .str entry.1 := by
  obtain ⟨key, value⟩ := e
  cases key with
  | str name =>
    by_cases htag : name = "tag"
    · subst htag
      cases h
    · rw [settingOf_of_ne htag] at h
      cases h
      rfl
  | none | bool | int | float | list | tuple | dict => cases h

-- What is found among the entries is what was found in the dictionary. The induction is on the
-- dictionary, whose keys have to be names.
theorem lookup_filterMap {dict : Entries} {key : Text}
    (hnames : ∀ e ∈ dict, ∃ name, e.1 = .str name) (hkey : key ≠ "tag") :
    (dict.filterMap settingOf).lookup key = (dict.find? key).map Value.settingText := by
  induction dict with
  | nil => rfl
  | cons e rest ih =>
    obtain ⟨⟨name, hname⟩, hrest⟩ := List.forall_mem_cons.mp hnames
    obtain ⟨_, value⟩ := e
    cases hname
    by_cases hsame : name = key
    · subst hsame
      rw [Entries.find?_cons_self, List.filterMap_cons, settingOf_of_ne hkey, Table.lookup_cons_ite,
        if_pos rfl]
      rfl
    · have hne : Value.str name ≠ .str key := fun h => hsame (Value.str.inj h)
      rw [Entries.find?_cons_of_ne hne, List.filterMap_cons, ← ih hrest]
      by_cases htag : name = "tag"
      · subst htag
        rfl
      · rw [settingOf_of_ne htag, Table.lookup_cons_ite, if_neg (Ne.symm hsame)]

variable {tag : Option CacheTag} {settings : List (Text × Text)} {dict : Entries}
  {result : Option CacheTag × List (Text × Text)}

theorem ofEntries_cons (key value : Value) :
    ofEntries tag settings ((key, value) :: dict) =
      Access.text key >>= fun name =>
        if name = "tag" then
          Access.name value >>= fun found => ofEntries (some found) settings dict
        else ofEntries tag (settings ++ [(name, value.settingText)]) dict := rfl

theorem key_of_ofEntries {key value : Value}
    (h : ofEntries tag settings ((key, value) :: dict) = .ok result) : ∃ name, key = .str name := by
  rw [ofEntries_cons] at h
  obtain ⟨name, hname, -⟩ := bind_eq_ok_iff.mp h
  exact ⟨name, Access.text_eq_ok_iff.mp hname⟩

theorem ofEntries_tag_iff {value : Value} :
    ofEntries tag settings ((.str "tag", value) :: dict) = .ok result ↔
      ∃ found, Access.name value = .ok found ∧
        ofEntries (some found) settings dict = .ok result := by
  have hname : Access.text (.str "tag") = .ok "tag" := rfl
  rw [ofEntries_cons, hname, ← bind_eq_ok_iff]
  exact Iff.rfl

theorem ofEntries_setting {name : Text} (h : name ≠ "tag") (value : Value) :
    ofEntries tag settings ((.str name, value) :: dict) =
      ofEntries tag (settings ++ [(name, value.settingText)]) dict :=
  if_neg h

-- What entries come to behind a tag and settings: keys are names, the one entry about the tag names
-- it, and the others are taken over in their order.
structure ReadAs (tag : Option CacheTag) (settings : List (Text × Text)) (dict : Entries)
    (result : Option CacheTag × List (Text × Text)) : Prop where
  names : ∀ e ∈ dict, ∃ name, e.1 = .str name
  untagged : dict.find? "tag" = none → result.1 = tag
  tagged : ∀ value, dict.find? "tag" = some value →
    ∃ found, Access.name value = .ok found ∧ result.1 = some found
  settings : result.2 = settings ++ dict.filterMap settingOf

theorem readAs_nil_iff : ReadAs tag settings [] result ↔ (tag, settings) = result := by
  constructor
  · rintro ⟨-, htag, -, hsettings⟩
    rw [List.filterMap_nil, List.append_nil] at hsettings
    rw [← htag rfl, ← hsettings]
  · rintro rfl
    exact ⟨nofun, fun _ => rfl, nofun, (List.append_nil settings).symm⟩

theorem readAs_tag_iff {value : Value} (hnone : dict.find? "tag" = none) :
    ReadAs tag settings ((.str "tag", value) :: dict) result ↔
      ∃ found, Access.name value = .ok found ∧ ReadAs (some found) settings dict result := by
  have hself := Entries.find?_cons_self "tag" value dict
  have hsame : List.filterMap settingOf ((.str "tag", value) :: dict) =
      dict.filterMap settingOf := List.filterMap_cons_none (settingOf_tag value)
  constructor
  · rintro ⟨hnames, -, htag, hsettings⟩
    rw [hsame] at hsettings
    obtain ⟨found, hfound, hresult⟩ := htag value hself
    refine ⟨found, hfound, (List.forall_mem_cons.mp hnames).2, fun _ => hresult, ?_, hsettings⟩
    intro value' hvalue'
    cases hnone.symm.trans hvalue'
  · rintro ⟨found, hfound, hnames, htag, -, hsettings⟩
    rw [← hsame] at hsettings
    refine ⟨List.forall_mem_cons.mpr ⟨⟨_, rfl⟩, hnames⟩, ?_, ?_, hsettings⟩
    · intro hnothing
      cases hself.symm.trans hnothing
    · intro value' hvalue'
      cases hself.symm.trans hvalue'
      exact ⟨found, hfound, htag hnone⟩

theorem readAs_setting_iff {name : Text} (h : name ≠ "tag") (value : Value) :
    ReadAs tag settings ((.str name, value) :: dict) result ↔
      ReadAs tag (settings ++ [(name, value.settingText)]) dict result := by
  have hne : Value.str name ≠ .str "tag" := fun htag => h (Value.str.inj htag)
  have hfind := Entries.find?_cons_of_ne hne value dict
  have hsettings : settings ++ List.filterMap settingOf ((.str name, value) :: dict) =
      settings ++ [(name, value.settingText)] ++ dict.filterMap settingOf := by
    rw [List.filterMap_cons_some (settingOf_of_ne h value), List.append_assoc,
      List.singleton_append]
  constructor
  · intro hread
    exact ⟨(List.forall_mem_cons.mp hread.names).2, hfind ▸ hread.untagged, hfind ▸ hread.tagged,
      hread.settings.trans hsettings⟩
  · intro hread
    exact ⟨List.forall_mem_cons.mpr ⟨⟨name, rfl⟩, hread.names⟩, hfind.symm ▸ hread.untagged,
      hfind.symm ▸ hread.tagged, hread.settings.trans hsettings.symm⟩

-- The induction is on the entries.
theorem ofEntries_eq_ok_iff (hkeys : dict.Distinct) :
    ofEntries tag settings dict = .ok result ↔ ReadAs tag settings dict result := by
  induction dict generalizing tag settings with
  | nil =>
    change Except.ok (tag, settings) = Except.ok result ↔ _
    rw [Except.ok.injEq, readAs_nil_iff]
  | cons e rest ih =>
    obtain ⟨hhead, hrest⟩ := List.pairwise_cons.mp hkeys
    obtain ⟨key, value⟩ := e
    by_cases hname : ∃ name, key = .str name
    case neg =>
      refine iff_of_false (fun h => hname (key_of_ofEntries h)) ?_
      exact fun h => hname (h.names _ List.mem_cons_self)
    obtain ⟨name, rfl⟩ := hname
    by_cases htag : name = "tag"
    · subst htag
      have hnone : Entries.find? rest "tag" = none :=
        Entries.find?_eq_none_iff.mpr fun e he hkey => hhead e he hkey.symm
      rw [ofEntries_tag_iff, readAs_tag_iff hnone]
      simp only [ih hrest]
    · rw [ofEntries_setting htag, ih hrest, readAs_setting_iff htag]

def ofRead : Option CacheTag × List (Text × Text) → Access CacheRequest
  | (none, _) => .error "tag not found"
  | (some .none, _) => .error "tag cannot be none"
  | (some tag, entries) =>
    if tag = .any || tag = .remote then .error ("tag cannot be abstract (" ++ tag.name ++ ")")
    else .ok ⟨tag, entries⟩

theorem ofRead_eq_ok_iff {request : CacheRequest} :
    ofRead result = .ok request ↔
      result = (some request.tag, request.entries) ∧
        request.tag ≠ .none ∧ request.tag ≠ .any ∧ request.tag ≠ .remote := by
  obtain ⟨tag, entries⟩ := result
  obtain ⟨asked, wanted⟩ := request
  constructor
  · intro h
    cases tag with
    | none => cases h
    | some tag =>
      cases tag with
      | none | any | remote => cases h
      | dir | sharedDir | http | daemon =>
        cases h
        exact ⟨rfl, nofun, nofun, nofun⟩
  · rintro ⟨h, hnone, hany, hremote⟩
    cases h
    cases asked with
    | none => exact absurd rfl hnone
    | any => exact absurd rfl hany
    | remote => exact absurd rfl hremote
    | dir | sharedDir | http | daemon => rfl

theorem ofDict_dict (dict : Entries) :
    ofDict (.dict dict) = ofEntries none [] dict >>= ofRead := by
  change (ofEntries none [] dict >>= fun read => _) = _
  congr 1
  funext read
  obtain ⟨tag, entries⟩ := read
  cases tag with
  | none => rfl
  | some tag => cases tag <;> rfl

theorem dict_of_ofDict {value : Value} {request : CacheRequest} (h : ofDict value = .ok request) :
    ∃ dict, value = .dict dict := by
  obtain ⟨dict, hdict, -⟩ := bind_eq_ok_iff.mp h
  exact ⟨dict, Access.dict_eq_ok_iff.mp hdict⟩

-- What a dictionary asks for: a type that has configurations, and entries besides.
structure AskedBy (request : CacheRequest) (dict : Entries) : Prop where
  names : ∀ e ∈ dict, ∃ name, e.1 = .str name
  tag : ∃ value, dict.find? "tag" = some value ∧ Access.name value = .ok request.tag
  concrete : request.tag ≠ .none ∧ request.tag ≠ .any ∧ request.tag ≠ .remote
  entries : request.entries = dict.filterMap settingOf

theorem ofDict_eq_ok_iff {request : CacheRequest} (hkeys : dict.Distinct) :
    ofDict (.dict dict) = .ok request ↔ request.AskedBy dict := by
  rw [ofDict_dict, bind_eq_ok_iff]
  constructor
  · rintro ⟨read, hread, h⟩
    obtain ⟨rfl, hconcrete⟩ := ofRead_eq_ok_iff.mp h
    obtain ⟨hnames, hunset, htag, hentries⟩ := (ofEntries_eq_ok_iff hkeys).mp hread
    cases hvalue : dict.find? "tag" with
    | none => cases hunset hvalue
    | some value =>
      obtain ⟨found, hfound, hsame⟩ := htag value hvalue
      cases hsame
      exact ⟨hnames, ⟨value, hvalue, hfound⟩, hconcrete, hentries⟩
  · rintro ⟨hnames, ⟨value, hvalue, htag⟩, hconcrete, hentries⟩
    refine ⟨(some request.tag, request.entries), ?_, ofRead_eq_ok_iff.mpr ⟨rfl, hconcrete⟩⟩
    refine (ofEntries_eq_ok_iff hkeys).mpr ⟨hnames, ?_, ?_, hentries⟩
    · intro h
      rw [hvalue] at h
      cases h
    · intro value' h
      rw [hvalue] at h
      cases h
      exact ⟨request.tag, htag, rfl⟩

namespace AskedBy

variable {request : CacheRequest} {dict dict' : Entries}

theorem distinct (h : request.AskedBy dict) (hkeys : dict.Distinct) :
    request.entries.Pairwise fun a b => a.1 ≠ b.1 := by
  rw [h.entries]
  refine hkeys.filterMap settingOf fun a a' hne b hb b' hb' hsame => hne ?_
  rw [key_of_settingOf hb, key_of_settingOf hb', hsame]

theorem mem_entries (h : request.AskedBy dict) {name : Text} {value : Value}
    (hmem : (.str name, value) ∈ dict) (hname : name ≠ "tag") :
    (name, value.settingText) ∈ request.entries := by
  rw [h.entries]
  exact List.mem_filterMap.mpr ⟨_, hmem, settingOf_of_ne hname value⟩

theorem lookup (h : request.AskedBy dict) {key : Text} (hkey : key ≠ "tag") :
    request.entries.lookup key = (dict.find? key).map Value.settingText := by
  rw [h.entries]
  exact lookup_filterMap h.names hkey

theorem perm (h : request.AskedBy dict) (hkeys : dict.Distinct) (hperm : dict.Perm dict') :
    ∃ request' : CacheRequest, request'.AskedBy dict' ∧ request'.tag = request.tag ∧
      request.entries.Perm request'.entries := by
  refine ⟨⟨request.tag, dict'.filterMap settingOf⟩, ⟨?_, ?_, h.concrete, rfl⟩, rfl, ?_⟩
  · exact fun e he => h.names e (hperm.mem_iff.mpr he)
  · rw [Entries.find?_perm hkeys hperm]
    exact h.tag
  · rw [h.entries]
    exact hperm.filterMap settingOf

end AskedBy

end CacheRequest

theorem CacheTier.name_injective {tier other : CacheTier} (h : tier.name = other.name) :
    tier = other := by
  cases tier <;> cases other <;> first | rfl | exact absurd h (by decide)

namespace CacheRequests

def get (requests : CacheRequests) : CacheTier → Option CacheRequest
  | .local => requests.localCache
  | .remote => requests.remoteCache

def put (requests : CacheRequests) (tier : CacheTier) (request : CacheRequest) : CacheRequests :=
  match tier with
  | .local => { requests with localCache := some request }
  | .remote => { requests with remoteCache := some request }

theorem get_put (requests : CacheRequests) (tier other : CacheTier) (request : CacheRequest) :
    (requests.put tier request).get other =
      if other = tier then some request else requests.get other := by
  cases tier <;> cases other <;> rfl

theorem set_name (requests : CacheRequests) (tier : CacheTier) (value : Value) :
    requests.set tier.name value =
      CacheRequest.ofDict value >>= fun request => .ok (requests.put tier request) := by
  cases tier <;> rfl

theorem name_of_set {requests after : CacheRequests} {name : Text} {value : Value}
    (h : requests.set name value = .ok after) : ∃ tier : CacheTier, name = tier.name := by
  unfold set at h
  by_cases hlocal : name = "local"
  · exact ⟨.local, hlocal⟩
  by_cases hremote : name = "remote"
  · exact ⟨.remote, hremote⟩
  · rw [if_neg hlocal, if_neg hremote] at h
    cases h

theorem ofEntries_cons (before : Text) (requests : CacheRequests) (key value : Value)
    (rest : Entries) :
    ofEntries before requests ((key, value) :: rest) =
      Reading.field ["caches", before] (Access.text key) >>= fun name =>
        Reading.field ["caches", name] (requests.set name value) >>= fun requests =>
          ofEntries name requests rest := rfl

theorem ofEntries_cons_iff {before : Text} {requests final : CacheRequests} {key value : Value}
    {rest : Entries} :
    ofEntries before requests ((key, value) :: rest) = .ok final ↔
      ∃ (tier : CacheTier) (request : CacheRequest), key = .str tier.name ∧
        CacheRequest.ofDict value = .ok request ∧
        ofEntries tier.name (requests.put tier request) rest = .ok final := by
  rw [ofEntries_cons, bind_eq_ok_iff]
  constructor
  · rintro ⟨name, hname, h⟩
    obtain ⟨after, hset, hrest⟩ := bind_eq_ok_iff.mp h
    rw [Reading.field_eq_ok_iff] at hname hset
    obtain ⟨tier, rfl⟩ := name_of_set hset
    rw [set_name, bind_eq_ok_iff] at hset
    obtain ⟨request, hrequest, hput⟩ := hset
    cases hput
    exact ⟨tier, request, Access.text_eq_ok_iff.mp hname, hrequest, hrest⟩
  · rintro ⟨tier, request, rfl, hrequest, hrest⟩
    refine ⟨tier.name, rfl, bind_eq_ok_iff.mpr ⟨requests.put tier request, ?_, hrest⟩⟩
    rw [Reading.field_eq_ok_iff, set_name, hrequest]
    rfl

theorem ext_get {a b : CacheRequests} (h : ∀ tier, a.get tier = b.get tier) : a = b := by
  cases a
  cases b
  cases h .local
  cases h .remote
  rfl

def asked (requests : CacheRequests) (caches : Entries) (tier : CacheTier) : Option CacheRequest :=
  (caches.find? tier.name).elim (requests.get tier) fun value =>
    (CacheRequest.ofDict value).toOption

theorem asked_cons (requests : CacheRequests) {tier : CacheTier} {request : CacheRequest}
    {value : Value} {rest : Entries} (hrequest : CacheRequest.ofDict value = .ok request)
    (hnone : rest.find? tier.name = none) :
    requests.asked ((.str tier.name, value) :: rest) = (requests.put tier request).asked rest := by
  funext other
  unfold asked
  by_cases h : other = tier
  · subst h
    rw [Entries.find?_cons_self, hnone, Option.elim_some, Option.elim_none, get_put, if_pos rfl,
      hrequest]
    rfl
  · have hne : Value.str tier.name ≠ .str other.name := fun hname =>
      h (CacheTier.name_injective (Value.str.inj hname).symm)
    rw [Entries.find?_cons_of_ne hne, get_put, if_neg h]

-- Every entry is the request for a tier, and a tier gets what is asked under its name. The
-- induction is on the entries.
theorem ofEntries_eq_ok_iff {before : Text} {requests final : CacheRequests} {caches : Entries}
    (hkeys : caches.Distinct) :
    ofEntries before requests caches = .ok final ↔
      (∀ e ∈ caches, ∃ (tier : CacheTier) (request : CacheRequest),
        e.1 = .str tier.name ∧ CacheRequest.ofDict e.2 = .ok request) ∧
      ∀ tier, final.get tier = requests.asked caches tier := by
  induction caches generalizing before requests with
  | nil =>
    change Except.ok requests = Except.ok final ↔ _
    rw [Except.ok.injEq]
    constructor
    · rintro rfl
      exact ⟨nofun, fun tier => rfl⟩
    · rintro ⟨-, h⟩
      exact ext_get fun tier => (h tier).symm
  | cons e rest ih =>
    obtain ⟨hhead, hrest⟩ := List.pairwise_cons.mp hkeys
    obtain ⟨key, value⟩ := e
    have hnone (tier : CacheTier) (hkey : key = .str tier.name) :
        Entries.find? rest tier.name = none :=
      Entries.find?_eq_none_iff.mpr fun a ha hsame => hhead a ha (hkey.trans hsame.symm)
    rw [ofEntries_cons_iff, List.forall_mem_cons]
    constructor
    · rintro ⟨tier, request, rfl, hrequest, h⟩
      obtain ⟨hall, hget⟩ := (ih hrest).mp h
      rw [asked_cons requests hrequest (hnone tier rfl)]
      exact ⟨⟨⟨tier, request, rfl, hrequest⟩, hall⟩, hget⟩
    · rintro ⟨⟨⟨tier, request, hkey, hrequest⟩, hall⟩, hget⟩
      cases hkey
      rw [asked_cons requests hrequest (hnone tier rfl)] at hget
      exact ⟨tier, request, rfl, hrequest, (ih hrest).mpr ⟨hall, hget⟩⟩

end CacheRequests

namespace Config

def given? (globals : Entries) (tier : CacheTier) : Option Value :=
  match globals.find? "caches" with
  | some (.dict caches) => Entries.find? caches tier.name
  | _ => none

def request (config : Config) : CacheTier → Option CacheRequest
  | .local => config.localCache
  | .remote => config.remoteCache

variable {globals : Entries}

theorem part_caches_eq_ok_iff {requests : CacheRequests} :
    part globals "caches" {} CacheRequests.ofGlobal = .ok requests ↔
      (globals.find? "caches" = none ∧ requests = {}) ∨
        ∃ caches, globals.find? "caches" = some (.dict caches) ∧
          CacheRequests.ofEntries "" {} caches = .ok requests := by
  unfold part
  cases globals.find? "caches" with
  | none =>
    constructor
    · intro h
      cases h
      exact .inl ⟨rfl, rfl⟩
    · rintro (⟨-, rfl⟩ | ⟨caches, h, -⟩)
      · rfl
      · cases h
  | some value =>
    constructor
    · intro h
      obtain ⟨caches, hdict, hrequests⟩ := bind_eq_ok_iff.mp h
      cases Access.dict_eq_ok_iff.mp (Reading.field_eq_ok_iff.mp hdict)
      exact .inr ⟨caches, rfl, hrequests⟩
    · rintro (⟨h, -⟩ | ⟨caches, h, hrequests⟩)
      · cases h
      · cases h
        exact hrequests

theorem request_of_ofGlobals {config : Config} (hproper : (Value.dict globals).Proper)
    (h : ofGlobals globals = .ok config) (tier : CacheTier) :
    (given? globals tier = none → config.request tier = none) ∧
      ∀ value, given? globals tier = some value → ∃ (dict : Entries) (request : CacheRequest),
        value = .dict dict ∧ dict.Distinct ∧ request.AskedBy dict ∧
          config.request tier = some request := by
  obtain ⟨requests, level, worker, trace, hcaches, -, -, -, rfl⟩ := ofGlobals_eq_ok_iff.mp h
  have hrequest : Config.request ⟨requests.localCache, requests.remoteCache, propertiesOf globals,
      worker, level, trace⟩ tier = requests.get tier := by cases tier <;> rfl
  rw [hrequest]
  unfold given?
  rcases part_caches_eq_ok_iff.mp hcaches with ⟨hnone, rfl⟩ | ⟨caches, hfound, hrequests⟩
  · rw [hnone]
    exact ⟨fun _ => by cases tier <;> rfl, nofun⟩
  · have hdict : (Value.dict caches).Proper := hproper.find? hfound
    obtain ⟨hall, hget⟩ := (CacheRequests.ofEntries_eq_ok_iff hdict.distinct).mp hrequests
    rw [hfound, hget]
    dsimp only
    refine ⟨fun hnone => ?_, fun value hvalue => ?_⟩
    · rw [CacheRequests.asked, hnone]
      cases tier <;> rfl
    · obtain ⟨_, request, -, hrequest⟩ := hall _ (Entries.mem_of_find? hvalue)
      obtain ⟨dict, rfl⟩ := CacheRequest.dict_of_ofDict hrequest
      have hkeys := (hdict.find? hvalue).distinct
      refine ⟨dict, request, rfl, hkeys, (CacheRequest.ofDict_eq_ok_iff hkeys).mp hrequest, ?_⟩
      rw [CacheRequests.asked, hvalue, Option.elim_some, hrequest]
      rfl

end Config

end Foreman
