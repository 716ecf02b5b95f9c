import Foreman.Proofs.Config.Requests

namespace Foreman

open Script (Entries Value Access ValueError)

-- What is wrong with a value, if it is not what it is taken for.
def Script.Access.complaint? {α : Type} : Access α → Option Text
  | .ok _ => none
  | .error why => some why

-- An entry that is looked for in a global, and what is wrong with its value.
abbrev EntryCheck := Text × (Value → Option Text)

namespace EntryCheck

def of {β : Type} (key : Text) (access : Value → Access β) : EntryCheck :=
  (key, fun value => (access value).complaint?)

def firstFault (name : Text) (checks : List EntryCheck) (entries : Entries) : Option FieldError :=
  checks.findSome? fun check =>
    (entries.find? check.1).bind fun value => (check.2 value).map (⟨[name, check.1], ·⟩)

theorem firstFault_alone {name : Text} {checks : List EntryCheck} {entries : Entries}
    {e : FieldError} (h : firstFault name checks entries = some e) :
    ∃ key value, entries.find? key = some value ∧ e.path = [name, key] ∧
      firstFault name checks [(.str key, value)] = some e := by
  obtain ⟨passed, check, rest, rfl, hfault, hpassed⟩ := List.findSome?_eq_some_iff.mp h
  obtain ⟨value, hvalue, hwhy⟩ := Option.bind_eq_some_iff.mp hfault
  obtain ⟨why, hcheck, rfl⟩ := Option.map_eq_some_iff.mp hwhy
  refine ⟨check.1, value, hvalue, rfl, ?_⟩
  refine List.findSome?_eq_some_iff.mpr ⟨passed, check, rest, rfl, ?_, ?_⟩
  · rw [Entries.find?_singleton, if_pos rfl]
    exact hwhy
  · intro earlier hmem
    rw [Entries.find?_singleton]
    by_cases hsame : earlier.1 = check.1
    · have hearlier := hpassed earlier hmem
      rw [hsame, hvalue] at hearlier
      rw [if_pos hsame, hsame]
      exact hearlier
    · rw [if_neg hsame]
      rfl

end EntryCheck

-- A global that is read one entry after another. None of them has an influence on how the next ones
-- are read. A complaint at the end is about the global.
inductive EntryByEntry {α : Type} (name : Text) (entries : Entries) :
    List EntryCheck → Reading α → Prop where
  | done {final : Reading α} (hpath : ∀ e, final = .error e → e.path = [name]) :
      EntryByEntry name entries [] final
  | entry {β : Type} (key : Text) (access : Value → Access β) {checks : List EntryCheck}
      {next : Option β → Reading α} (h : ∀ found, EntryByEntry name entries checks (next found)) :
      EntryByEntry name entries (.of key access :: checks)
        (Reading.entry [name] entries key access >>= next)

namespace EntryByEntry

variable {α : Type} {name : Text} {entries : Entries} {checks : List EntryCheck} {read : Reading α}
  {e : FieldError}

theorem entry_cases {β : Type} (key : Text) (access : Value → Access β) :
    (∃ found, Reading.entry [name] entries key access = .ok found ∧
      EntryCheck.firstFault name (.of key access :: checks) entries =
        EntryCheck.firstFault name checks entries) ∨
    ∃ fault, Reading.entry [name] entries key access = .error fault ∧
      EntryCheck.firstFault name (.of key access :: checks) entries = some fault := by
  unfold Reading.entry EntryCheck.firstFault EntryCheck.of
  rw [List.findSome?_cons]
  dsimp only
  cases entries.find? key with
  | none => exact .inl ⟨none, rfl, rfl⟩
  | some value =>
    dsimp only
    rw [Option.bind_some]
    cases access value with
    | ok b => exact .inl ⟨some b, rfl, rfl⟩
    | error why => exact .inr ⟨⟨[name, key], why⟩, rfl, rfl⟩

theorem error_of_fault (hread : EntryByEntry name entries checks read)
    (h : EntryCheck.firstFault name checks entries = some e) : read = .error e := by
  induction hread with
  | done hpath => cases h
  | entry key access hnext ih =>
    rcases entry_cases key access with ⟨found, hfound, hrest⟩ | ⟨fault, hfault, hfirst⟩
    · rw [hfound]
      exact ih found (hrest ▸ h)
    · rw [hfault]
      cases hfirst.symm.trans h
      rfl

theorem fault_of_error (hread : EntryByEntry name entries checks read) (h : read = .error e) :
    EntryCheck.firstFault name checks entries = some e ∨ e.path = [name] := by
  induction hread with
  | done hpath => exact .inr (hpath e h)
  | entry key access hnext ih =>
    rcases entry_cases key access with ⟨found, hfound, hrest⟩ | ⟨fault, hfault, hfirst⟩
    · rw [hfound] at h
      rw [hrest]
      exact ih found h
    · rw [hfault] at h
      cases h
      exact .inl hfirst

end EntryByEntry

-- A global that cannot be read is blamed as a whole, or for an entry that makes it unreadable.
inductive BlamesInside {α : Type} (ofGlobal : Value → Reading α) (name : Text) (value : Value)
    (e : FieldError) : Prop where
  | whole (hpath : e.path = [name])
  | entry {entries : Entries} {key : Text} {item : Value} (hvalue : value = .dict entries)
      (hmem : (.str key, item) ∈ entries) (hpath : e.path = [name, key])
      (halone : ofGlobal (.dict [(.str key, item)]) = .error e)

theorem EntryByEntry.blames {α : Type} {name : Text} {checks : List EntryCheck}
    {ofGlobal : Value → Reading α}
    (hdict : ∀ {value why}, Access.dict value = .error why → ofGlobal value = .error ⟨[name], why⟩)
    (hread : ∀ entries, EntryByEntry name entries checks (ofGlobal (.dict entries))) {value : Value}
    {e : FieldError} (h : ofGlobal value = .error e) : BlamesInside ofGlobal name value e := by
  cases haccess : Access.dict value with
  | error why =>
    cases (hdict haccess).symm.trans h
    exact .whole rfl
  | ok entries =>
    cases Access.dict_eq_ok_iff.mp haccess
    rcases (hread entries).fault_of_error h with hfault | hpath
    · obtain ⟨key, item, hitem, hpath, halone⟩ := EntryCheck.firstFault_alone hfault
      exact .entry rfl (Entries.mem_of_find? hitem) hpath ((hread _).error_of_fault halone)
    · exact .whole hpath

namespace Isolation

def entryChecks : List EntryCheck :=
  [.of "code_path" Access.texts, .of "shared_pkgs" Access.texts, .of "min_heap" Access.size,
    .of "max_heap" Access.size, .of "args" Access.texts, .of "cwd" directoryOf,
    .of "env" environmentOf]

theorem entryByEntry_ofGlobal (entries : Entries) :
    EntryByEntry "worker" entries entryChecks (ofGlobal (.dict entries)) := by
  refine .entry "code_path" Access.texts fun codePath => ?_
  refine .entry "shared_pkgs" Access.texts fun sharedPackages => ?_
  refine .entry "min_heap" Access.size fun minHeap => ?_
  refine .entry "max_heap" Access.size fun maxHeap => ?_
  refine .entry "args" Access.texts fun arguments => ?_
  refine .entry "cwd" directoryOf fun directory => ?_
  refine .entry "env" environmentOf fun environment => ?_
  refine .done fun e h => ?_
  -- the constraints are readable one by one, and are not acceptable taken together
  rcases bind_eq_error h with hcheck | ⟨_, -, hpure⟩
  · obtain ⟨why, -, rfl⟩ := Reading.field_eq_error_iff.mp hcheck
    rfl
  · cases hpure

theorem ofGlobal_blames {value : Value} {e : FieldError} (h : ofGlobal value = .error e) :
    BlamesInside ofGlobal "worker" value e := by
  refine EntryByEntry.blames (fun hdict => ?_) entryByEntry_ofGlobal h
  unfold ofGlobal
  rw [hdict]
  rfl

end Isolation

namespace TraceConf

def entryChecks : List EntryCheck :=
  [.of "file" Access.text, .of "size" Access.size, .of "channels" channelsOf]

theorem entryByEntry_ofGlobal (entries : Entries) :
    EntryByEntry "trace" entries entryChecks (ofGlobal (.dict entries)) := by
  refine .entry "file" Access.text fun file => ?_
  refine .entry "size" Access.size fun size => ?_
  refine .entry "channels" channelsOf fun channels => ?_
  exact .done nofun

theorem ofGlobal_blames {value : Value} {e : FieldError} (h : ofGlobal value = .error e) :
    BlamesInside ofGlobal "trace" value e := by
  refine EntryByEntry.blames (fun hdict => ?_) entryByEntry_ofGlobal h
  unfold ofGlobal
  rw [hdict]
  rfl

end TraceConf

def noText (key : Value) : Text := (ValueError.wrongType key.typeName "str").message

namespace CacheRequests

-- Behind tiers that can be read there is a key that is no text. The last of these tiers is `tier`,
-- which is `before` if there are none.
inductive Unnamed : Text → Entries → Text → Value → Prop where
  | here {before : Text} {key value : Value} {rest : Entries} (h : ∀ name, key ≠ .str name) :
      Unnamed before ((key, value) :: rest) before key
  | behind {before tier : Text} {front : CacheTier} {request : CacheRequest} {key value : Value}
      {rest : Entries} (hrequest : CacheRequest.ofDict value = .ok request)
      (h : Unnamed front.name rest tier key) :
      Unnamed before ((.str front.name, value) :: rest) tier key

theorem ofEntries_name (before name : Text) (requests : CacheRequests) (value : Value)
    (rest : Entries) :
    ofEntries before requests ((.str name, value) :: rest) =
      Reading.field ["caches", name] (requests.set name value) >>= fun requests =>
        ofEntries name requests rest := rfl

-- Whether a tier can be read has nothing to do with what was read before.
theorem set_eq_error {requests : CacheRequests} {name why : Text} {value : Value}
    (h : requests.set name value = .error why) (other : CacheRequests) :
    other.set name value = .error why := by
  by_cases htier : ∃ tier : CacheTier, name = tier.name
  · obtain ⟨tier, rfl⟩ := htier
    rw [set_name] at h ⊢
    rcases bind_eq_error h with hrequest | ⟨_, -, hput⟩
    · rw [hrequest]
      rfl
    · cases hput
  · have hlocal : name ≠ "local" := fun h => htier ⟨.local, h⟩
    have hremote : name ≠ "remote" := fun h => htier ⟨.remote, h⟩
    unfold set at h ⊢
    rw [if_neg hlocal, if_neg hremote] at h ⊢
    exact h

theorem ofGlobal_alone {name why : Text} {value : Value}
    (h : ({} : CacheRequests).set name value = .error why) :
    ofGlobal (.dict [(.str name, value)]) = .error ⟨["caches", name], why⟩ := by
  have hstep : ofGlobal (.dict [(.str name, value)]) = ofEntries "" {} [(.str name, value)] := rfl
  rw [hstep, ofEntries_name, h]
  rfl

theorem ofEntries_of_unnamed {before tier : Text} {requests : CacheRequests} {caches : Entries}
    {key : Value} (h : Unnamed before caches tier key) :
    ofEntries before requests caches = .error ⟨["caches", tier], noText key⟩ := by
  induction h generalizing requests with
  | here hkey =>
    rw [ofEntries_cons, Access.text_of_no_text hkey]
    rfl
  | @behind before _ front request _ value _ hrequest _ ih =>
    have hset : requests.set front.name value = .ok (requests.put front request) := by
      rw [set_name, hrequest]
      rfl
    rw [ofEntries_name, hset]
    exact ih

-- A tier is blamed that is wrong on its own, or one in front of a key that is no text. The
-- induction is on the tiers, all of which can be read until then.
theorem blames_or_unnamed {before : Text} {requests : CacheRequests} {caches : Entries}
    {e : FieldError} (h : ofEntries before requests caches = .error e) :
    (∃ (name : Text) (value : Value), (.str name, value) ∈ caches ∧
      e.path = [("caches" : Text), name] ∧ ofGlobal (.dict [(.str name, value)]) = .error e) ∨
    ∃ tier key, Unnamed before caches tier key := by
  induction caches generalizing before requests with
  | nil => cases h
  | cons entry rest ih =>
    obtain ⟨key, value⟩ := entry
    by_cases hname : ∃ name, key = .str name
    case neg => exact .inr ⟨before, key, .here fun name hkey => hname ⟨name, hkey⟩⟩
    obtain ⟨name, rfl⟩ := hname
    rw [ofEntries_name] at h
    rcases bind_eq_error h with hset | ⟨after, hset, hrest⟩
    · obtain ⟨why, hwhy, rfl⟩ := Reading.field_eq_error_iff.mp hset
      exact .inl ⟨name, value, List.mem_cons_self, rfl, ofGlobal_alone (set_eq_error hwhy {})⟩
    · have hread := Reading.field_eq_ok_iff.mp hset
      obtain ⟨tier, rfl⟩ := name_of_set hread
      rw [set_name] at hread
      obtain ⟨request, hrequest, -⟩ := bind_eq_ok_iff.mp hread
      rcases ih hrest with ⟨name, item, hmem, hblamed⟩ | ⟨last, key, hunnamed⟩
      · exact .inl ⟨name, item, List.mem_cons_of_mem _ hmem, hblamed⟩
      · exact .inr ⟨last, key, .behind hrequest hunnamed⟩

theorem tier_of_unnamed {before tier : Text} {caches : Entries} {key : Value}
    (h : Unnamed before caches tier key) :
    tier = before ∨ ∃ (front : CacheTier) (value : Value) (request : CacheRequest),
      tier = front.name ∧ (.str tier, value) ∈ caches ∧
        CacheRequest.ofDict value = .ok request := by
  induction h with
  | here hkey => exact .inl rfl
  | @behind _ _ front request _ value _ hrequest _ ih =>
    right
    rcases ih with rfl | ⟨last, item, request, htier, hmem, hitem⟩
    · exact ⟨front, value, request, rfl, List.mem_cons_self, hrequest⟩
    · exact ⟨last, item, request, htier, List.mem_cons_of_mem _ hmem, hitem⟩

theorem ofGlobal_blames {value : Value} {e : FieldError} (h : ofGlobal value = .error e) :
    BlamesInside ofGlobal "caches" value e ∨
      ∃ caches tier key, value = .dict caches ∧ Unnamed "" caches tier key := by
  rcases bind_eq_error h with hdict | ⟨caches, hdict, hcaches⟩
  · obtain ⟨why, -, rfl⟩ := Reading.field_eq_error_iff.mp hdict
    exact .inl (.whole rfl)
  · cases Access.dict_eq_ok_iff.mp (Reading.field_eq_ok_iff.mp hdict)
    rcases blames_or_unnamed hcaches with ⟨name, item, hmem, hpath, halone⟩ | ⟨tier, key, hkey⟩
    · exact .inl (.entry rfl hmem hpath halone)
    · exact .inr ⟨caches, tier, key, rfl, hkey⟩

theorem not_alone_of_unnamed {caches : Entries} (hkeys : caches.Distinct) {tier : Text}
    {key value : Value} (h : Unnamed "" caches tier key) (hmem : (.str tier, value) ∈ caches) :
    ofGlobal (.dict [(.str tier, value)]) ≠ .error ⟨["caches", tier], noText key⟩ := by
  intro halone
  rcases tier_of_unnamed h with rfl | ⟨front, item, request, rfl, hitem, hrequest⟩
  · have hset : ({} : CacheRequests).set "" value = .error "unexpected tier" := rfl
    rw [ofGlobal_alone hset] at halone
    -- the two messages differ in their first letters
    cases halone
  · have hsame := (Entries.find?_of_mem hkeys hmem).symm.trans (Entries.find?_of_mem hkeys hitem)
    cases hsame
    have hread : ofEntries "" {} [(.str front.name, value)] =
        .ok (({} : CacheRequests).put front request) :=
      ofEntries_cons_iff.mpr ⟨front, request, rfl, hrequest, rfl⟩
    cases hread.symm.trans halone

end CacheRequests

namespace Config

inductive Faulty : Text → Value → FieldError → Prop where
  | caches {value : Value} {e : FieldError} (h : CacheRequests.ofGlobal value = .error e) :
      Faulty "caches" value e
  | level {value : Value} {why : Text} (h : (Access.name value : Access LogLevel) = .error why) :
      Faulty "log_level" value ⟨["log_level"], why⟩
  | worker {value : Value} {e : FieldError} (h : Isolation.ofGlobal value = .error e) :
      Faulty "worker" value e
  | trace {value : Value} {e : FieldError} (h : TraceConf.ofGlobal value = .error e) :
      Faulty "trace" value e

theorem part_eq_error {α : Type} {globals : Entries} {name : Text} {default : α}
    {ofGlobal : Value → Reading α} {e : FieldError}
    (h : part globals name default ofGlobal = .error e) :
    ∃ value, globals.find? name = some value ∧ ofGlobal value = .error e := by
  unfold part at h
  cases hfind : globals.find? name with
  | none =>
    rw [hfind] at h
    cases h
  | some value =>
    rw [hfind] at h
    exact ⟨value, rfl, h⟩

theorem faulty_of_ofGlobals {globals : Entries} {e : FieldError}
    (h : ofGlobals globals = .error e) :
    ∃ name value, globals.find? name = some value ∧ Faulty name value e := by
  rcases bind_eq_error h with hcaches | ⟨_, -, h⟩
  · obtain ⟨value, hvalue, hfault⟩ := part_eq_error hcaches
    exact ⟨_, value, hvalue, .caches hfault⟩
  rcases bind_eq_error h with hlevel | ⟨_, -, h⟩
  · obtain ⟨value, hvalue, hfault⟩ := part_eq_error hlevel
    obtain ⟨why, hwhy, rfl⟩ := Reading.field_eq_error_iff.mp hfault
    exact ⟨_, value, hvalue, .level hwhy⟩
  rcases bind_eq_error h with hworker | ⟨_, -, h⟩
  · obtain ⟨value, hvalue, hfault⟩ := part_eq_error hworker
    exact ⟨_, value, hvalue, .worker hfault⟩
  rcases bind_eq_error h with htrace | ⟨_, -, h⟩
  · obtain ⟨value, hvalue, hfault⟩ := part_eq_error htrace
    exact ⟨_, value, hvalue, .trace hfault⟩
  · cases h

theorem ofGlobals_of_faulty {name : Text} {value : Value} {e : FieldError}
    (h : Faulty name value e) : ofGlobals [(.str name, value)] = .error e := by
  cases h with
  | caches h =>
    change (CacheRequests.ofGlobal value >>= _) = _
    rw [h]
    rfl
  | @level _ why h =>
    change (Reading.field ["log_level"] (Access.name value : Access LogLevel) >>= _) = _
    rw [h]
    rfl
  | worker h =>
    change (Isolation.ofGlobal value >>= _) = _
    rw [h]
    rfl
  | trace h =>
    change (TraceConf.ofGlobal value >>= _) = _
    rw [h]
    rfl

-- The field that is named is there, and is wrong on its own: with nothing else there is the same
-- error.
inductive Blames (globals : Entries) (e : FieldError) : Prop where
  | global {name : Text} {value : Value} (hmem : (.str name, value) ∈ globals)
      (hpath : e.path = [name]) (halone : ofGlobals [(.str name, value)] = .error e)
  | entry {name key : Text} {entries : Entries} {value : Value}
      (hmem : (.str name, .dict entries) ∈ globals) (hkey : (.str key, value) ∈ entries)
      (hpath : e.path = [name, key])
      (halone : ofGlobals [(.str name, .dict [(.str key, value)])] = .error e)

-- A key among the caches is no text, and is come to behind `tier`.
def HasUnnamed (globals : Entries) (tier : Text) (key : Value) : Prop :=
  ∃ caches, globals.find? "caches" = some (.dict caches) ∧
    CacheRequests.Unnamed "" caches tier key

theorem ofGlobals_of_hasUnnamed {globals : Entries} {tier : Text} {key : Value}
    (h : HasUnnamed globals tier key) :
    ofGlobals globals = .error ⟨["caches", tier], noText key⟩ := by
  obtain ⟨caches, hfound, hunnamed⟩ := h
  have hread : part globals "caches" {} CacheRequests.ofGlobal =
      CacheRequests.ofEntries "" {} caches := by
    unfold part
    rw [hfound]
    rfl
  unfold ofGlobals
  rw [hread, CacheRequests.ofEntries_of_unnamed hunnamed]
  rfl

theorem blames_of_inside {α : Type} {globals : Entries} {name : Text} {value : Value}
    {ofGlobal : Value → Reading α} {e : FieldError} (hfound : globals.find? name = some value)
    (hfaulty : ∀ {value}, ofGlobal value = .error e → Faulty name value e)
    (h : ofGlobal value = .error e) (hinside : BlamesInside ofGlobal name value e) :
    Blames globals e := by
  have hmem := Entries.mem_of_find? hfound
  cases hinside with
  | whole hpath => exact .global hmem hpath (ofGlobals_of_faulty (hfaulty h))
  | entry hvalue hkey hpath halone =>
    subst hvalue
    exact .entry hmem hkey hpath (ofGlobals_of_faulty (hfaulty halone))

theorem ofGlobal_of_caches_alone {value : Value} {e : FieldError}
    (h : ofGlobals [(.str "caches", value)] = .error e) :
    CacheRequests.ofGlobal value = .error e := by
  rcases bind_eq_error h with hcaches | ⟨caches, -, hrest⟩
  · exact hcaches
  · -- nothing else is there to be wrong
    cases hrest

-- Every field that is blamed is wrong on its own, unless the error is about a key among the caches
-- that is no text. It is the tier in front of this key that is named then, or an empty name if
-- there is none, although the tier can be read.
theorem blame_of_unreadable_globals {globals : Entries} {e : FieldError}
    (hproper : (Value.dict globals).Proper) (h : ofGlobals globals = .error e) :
    (Blames globals e ↔ ¬∃ tier key, HasUnnamed globals tier key) ∧
      ∀ tier key, HasUnnamed globals tier key → e = ⟨["caches", tier], noText key⟩ := by
  have hunnamed (tier : Text) (key : Value) (hkey : HasUnnamed globals tier key) :
      e = ⟨["caches", tier], noText key⟩ :=
    Except.error.inj (h.symm.trans (ofGlobals_of_hasUnnamed hkey))
  refine ⟨⟨?not_unnamed, ?blames⟩, hunnamed⟩
  case not_unnamed =>
    rintro hblames ⟨tier, key, hkey⟩
    cases hunnamed tier key hkey
    obtain ⟨caches, hfound, hkey⟩ := hkey
    cases hblames with
    | global hmem hpath halone => cases hpath
    | entry hmem hentry hpath halone =>
      cases hpath
      cases hfound.symm.trans (Entries.find?_of_mem hproper.distinct hmem)
      have hkeys : Entries.Distinct caches := (hproper.find? hfound).distinct
      exact CacheRequests.not_alone_of_unnamed hkeys hkey hentry (ofGlobal_of_caches_alone halone)
  case blames =>
    intro hnamed
    obtain ⟨name, value, hfound, hfaulty⟩ := faulty_of_ofGlobals h
    cases hfaulty with
    | caches hcaches =>
      rcases CacheRequests.ofGlobal_blames hcaches with hinside | ⟨caches, tier, key, rfl, hkey⟩
      · exact blames_of_inside hfound .caches hcaches hinside
      · exact absurd ⟨tier, key, caches, hfound, hkey⟩ hnamed
    | level hlevel =>
      exact .global (Entries.mem_of_find? hfound) rfl (ofGlobals_of_faulty (.level hlevel))
    | worker hworker =>
      exact blames_of_inside hfound .worker hworker (Isolation.ofGlobal_blames hworker)
    | trace htrace => exact blames_of_inside hfound .trace htrace (TraceConf.ofGlobal_blames htrace)

-- The size of the trace is what is wrong here, and the file is not.
theorem blame_of_negative_size :
    Blames [(.str "trace", .dict [(.str "file", .str "t"), (.str "size", .int (-1))])]
      ⟨["trace", "size"], ValueError.negative.message⟩ := by
  have hkeys : Entries.Distinct [(.str "file", .str "t"), (.str "size", .int (-1))] := by
    have hne : Value.str "file" ≠ .str "size" := fun h => absurd (Value.str.inj h) (by decide)
    exact List.pairwise_pair.mpr hne
  have htrace : (Value.dict [(.str "file", .str "t"), (.str "size", .int (-1))]).Proper := by
    refine .dict hkeys ?_ ?_
    · exact List.forall_mem_cons.mpr ⟨.str _, List.forall_mem_singleton.mpr (.str _)⟩
    · exact List.forall_mem_cons.mpr ⟨.str _, List.forall_mem_singleton.mpr (.int _)⟩
  have hproper : (Value.dict [(.str "trace", .dict [(.str "file", .str "t"),
      (.str "size", .int (-1))])]).Proper :=
    .dict (List.pairwise_singleton _ _) (List.forall_mem_singleton.mpr (.str _))
      (List.forall_mem_singleton.mpr htrace)
  refine (blame_of_unreadable_globals hproper rfl).1.mpr ?_
  rintro ⟨tier, key, caches, hfound, -⟩
  cases hfound

-- The key that is wrong is a number, and the local tier is named, which can be read.
theorem tier_blamed_for_number :
    ∃ (globals : Entries) (e : FieldError), (Value.dict globals).Proper ∧
      globals = [(.str "caches",
        .dict [(.str "local", .dict [(.str "tag", .str "dir")]), (.int 5, .dict [])])] ∧
      ofGlobals globals = .error e ∧ e.path = [("caches" : Text), "local"] ∧
      (ofGlobals [(.str "caches", .dict [(.str "local", .dict [(.str "tag", .str "dir")])])]).isOk ∧
      ¬Blames globals e := by
  have hlocal : (Value.dict [(.str "tag", .str "dir")]).Proper :=
    .dict (List.pairwise_singleton _ _) (List.forall_mem_singleton.mpr (.str _))
      (List.forall_mem_singleton.mpr (.str _))
  have hkeys : Entries.Distinct
      [(.str "local", .dict [(.str "tag", .str "dir")]), (.int 5, .dict [])] :=
    List.pairwise_pair.mpr nofun
  have hcaches : (Value.dict
      [(.str "local", .dict [(.str "tag", .str "dir")]), (.int 5, .dict [])]).Proper := by
    refine .dict hkeys ?_ ?_
    · exact List.forall_mem_cons.mpr ⟨.str _, List.forall_mem_singleton.mpr (.int _)⟩
    · have hempty : (Value.dict []).Proper := .dict .nil nofun nofun
      exact List.forall_mem_cons.mpr ⟨hlocal, List.forall_mem_singleton.mpr hempty⟩
  refine ⟨_, ⟨["caches", "local"], noText (.int 5)⟩, ?_, rfl, rfl, rfl, rfl, ?_⟩
  · exact .dict (List.pairwise_singleton _ _) (List.forall_mem_singleton.mpr (.str _))
      (List.forall_mem_singleton.mpr hcaches)
  · rintro (⟨hmem, hpath, -⟩ | ⟨hmem, hentry, hpath, halone⟩)
    · cases hpath
    · cases hpath
      cases List.mem_singleton.mp hmem
      rcases List.mem_cons.mp hentry with hsame | hother
      · cases hsame
        cases halone
      · cases List.mem_singleton.mp hother

end Config

end Foreman
