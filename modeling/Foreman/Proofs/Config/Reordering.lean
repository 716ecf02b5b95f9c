import Foreman.Proofs.Config.Requests
import Mathlib.Data.List.Forall2

namespace Foreman

open Script (Entries Value Access)

inductive Script.Value.Shuffled : Value → Value → Prop where
  | dict {entries entries' : Entries} (h : entries.Perm entries') :
      Shuffled (.dict entries) (.dict entries')

-- Caches with the same keys in the same places, each of them for the same entries in another order.
def Script.Entries.ShuffledInside (caches caches' : Entries) : Prop :=
  List.Forall₂ (fun e e' => e.1 = e'.1 ∧ e.2.Shuffled e'.2) caches caches'

structure CacheRequest.Shuffled (request request' : CacheRequest) : Prop where
  tag : request'.tag = request.tag
  distinct : request.entries.Pairwise fun a b => a.1 ≠ b.1
  entries : request.entries.Perm request'.entries

theorem CacheRequest.ofDict_shuffled {value value' : Value} {request : CacheRequest}
    (hproper : value.Proper) (hvalue : value.Shuffled value') (h : ofDict value = .ok request) :
    ∃ request', ofDict value' = .ok request' ∧ request.Shuffled request' := by
  obtain ⟨hperm⟩ := hvalue
  have hkeys := hproper.distinct
  have hasked := (ofDict_eq_ok_iff hkeys).mp h
  obtain ⟨request', hasked', htag, hentries⟩ := hasked.perm hkeys hperm
  exact ⟨request', (ofDict_eq_ok_iff (hkeys.perm hperm)).mpr hasked', htag, hasked.distinct hkeys,
    hentries⟩

namespace Script.Entries.ShuffledInside

variable {caches caches' : Entries}

theorem exists_of_mem (h : caches.ShuffledInside caches') {e' : Value × Value}
    (he' : e' ∈ caches') : ∃ e ∈ caches, e.1 = e'.1 ∧ e.2.Shuffled e'.2 := by
  induction h with
  | nil => cases he'
  | cons he hrest ih =>
    rcases List.mem_cons.mp he' with rfl | hmem
    · exact ⟨_, List.mem_cons_self, he⟩
    · obtain ⟨e, hmem, hsame⟩ := ih hmem
      exact ⟨e, List.mem_cons_of_mem _ hmem, hsame⟩

theorem distinct (h : caches.ShuffledInside caches') (hkeys : caches.Distinct) :
    caches'.Distinct := by
  induction h with
  | nil => exact hkeys
  | @cons e e' rest rest' he hrest ih =>
    obtain ⟨hhead, htail⟩ := List.pairwise_cons.mp hkeys
    refine List.pairwise_cons.mpr ⟨fun a' ha' hsame => ?_, ih htail⟩
    obtain ⟨a, ha, hkey, -⟩ := exists_of_mem hrest ha'
    exact hhead a ha (he.1.trans (hsame.trans hkey.symm))

theorem find? (h : caches.ShuffledInside caches') (name : Text) :
    Option.Rel Value.Shuffled (caches.find? name) (caches'.find? name) := by
  induction h with
  | nil => exact .none
  | @cons e e' rest rest' he hrest ih =>
    obtain ⟨key, value⟩ := e
    obtain ⟨_, value'⟩ := e'
    obtain ⟨rfl, hvalue⟩ := he
    by_cases hkey : key = .str name
    · subst hkey
      rw [find?_cons_self, find?_cons_self]
      exact .some hvalue
    · rw [find?_cons_of_ne hkey, find?_cons_of_ne hkey]
      exact ih

end Script.Entries.ShuffledInside

-- Globals that differ in the order of the caches and of the entries in each of them.
structure Config.Reordered (globals globals' : Entries) : Prop where
  others : ∀ name : Text, name ≠ "caches" → globals'.find? name = globals.find? name
  absent : globals.find? "caches" = none → globals'.find? "caches" = none
  caches : ∀ caches : Entries, globals.find? "caches" = some (.dict caches) →
    ∃ between caches' : Entries, caches.Perm between ∧ between.ShuffledInside caches' ∧
      globals'.find? "caches" = some (.dict caches')

namespace CacheRequests

theorem asked_shuffled {caches caches' : Entries} {requests : CacheRequests}
    (hvalues : ∀ e ∈ caches, e.2.Proper) (hinside : caches.ShuffledInside caches')
    (h : ofEntries "" {} caches = .ok requests) (hkeys : caches.Distinct) (tier : CacheTier) :
    Option.Rel CacheRequest.Shuffled (asked {} caches tier) (asked {} caches' tier) := by
  obtain ⟨hall, -⟩ := (ofEntries_eq_ok_iff hkeys).mp h
  have hrel := hinside.find? tier.name
  unfold asked
  generalize hfind : caches.find? tier.name = found at hrel ⊢
  generalize caches'.find? tier.name = found' at hrel ⊢
  cases hrel with
  | none => cases tier <;> exact .none
  | some hvalue =>
    have hmem := Entries.mem_of_find? hfind
    obtain ⟨-, request, -, hrequest⟩ := hall _ hmem
    obtain ⟨request', hrequest', hshuffled⟩ :=
      CacheRequest.ofDict_shuffled (hvalues _ hmem) hvalue hrequest
    rw [Option.elim_some, Option.elim_some, hrequest, hrequest']
    exact .some hshuffled

theorem ofEntries_shuffled {caches caches' : Entries} {requests : CacheRequests}
    (hkeys : caches.Distinct) (hvalues : ∀ e ∈ caches, e.2.Proper)
    (hinside : caches.ShuffledInside caches') (h : ofEntries "" {} caches = .ok requests) :
    ∃ requests', ofEntries "" {} caches' = .ok requests' ∧
      ∀ tier, Option.Rel CacheRequest.Shuffled (requests.get tier) (requests'.get tier) := by
  obtain ⟨hall, hget⟩ := (ofEntries_eq_ok_iff hkeys).mp h
  have hget' (tier : CacheTier) :
      get ⟨asked {} caches' .local, asked {} caches' .remote⟩ tier = asked {} caches' tier := by
    cases tier <;> rfl
  refine ⟨⟨asked {} caches' .local, asked {} caches' .remote⟩, ?_, fun tier => ?_⟩
  · refine (ofEntries_eq_ok_iff (hinside.distinct hkeys)).mpr ⟨fun e' he' => ?_, hget'⟩
    obtain ⟨e, he, hkey, hvalue⟩ := hinside.exists_of_mem he'
    obtain ⟨tier, request, hname, hrequest⟩ := hall e he
    obtain ⟨request', hrequest', -⟩ := CacheRequest.ofDict_shuffled (hvalues e he) hvalue hrequest
    exact ⟨tier, request', hkey.symm.trans hname, hrequest'⟩
  · rw [hget tier, hget' tier]
    exact asked_shuffled hvalues hinside h hkeys tier

theorem ofEntries_perm {caches caches' : Entries} {requests : CacheRequests}
    (hkeys : caches.Distinct) (hperm : caches.Perm caches')
    (h : ofEntries "" {} caches = .ok requests) : ofEntries "" {} caches' = .ok requests := by
  obtain ⟨hall, hget⟩ := (ofEntries_eq_ok_iff hkeys).mp h
  refine (ofEntries_eq_ok_iff (hkeys.perm hperm)).mpr ⟨?_, fun tier => ?_⟩
  · exact fun e he => hall e (hperm.mem_iff.mpr he)
  · rw [hget, asked, asked, Entries.find?_perm hkeys hperm]

end CacheRequests

namespace Config

theorem part_caches_reordered {globals globals' : Entries} (hproper : (Value.dict globals).Proper)
    (hreordered : Reordered globals globals') {requests : CacheRequests}
    (h : part globals "caches" {} CacheRequests.ofGlobal = .ok requests) :
    ∃ requests', part globals' "caches" {} CacheRequests.ofGlobal = .ok requests' ∧
      ∀ tier, Option.Rel CacheRequest.Shuffled (requests.get tier) (requests'.get tier) := by
  rcases part_caches_eq_ok_iff.mp h with ⟨hnone, rfl⟩ | ⟨caches, hfound, hrequests⟩
  · refine ⟨{}, part_caches_eq_ok_iff.mpr (.inl ⟨hreordered.absent hnone, rfl⟩), fun tier => ?_⟩
    cases tier <;> exact .none
  · obtain ⟨between, caches', hperm, hinside, hfound'⟩ := hreordered.caches caches hfound
    have hdict : (Value.dict caches).Proper := hproper.find? hfound
    have hkeys := hdict.distinct
    have hvalues : ∀ e ∈ between, e.2.Proper := fun e he => hdict.value (hperm.mem_iff.mpr he)
    obtain ⟨requests', hrequests', hrel⟩ := CacheRequests.ofEntries_shuffled (hkeys.perm hperm)
      hvalues hinside (CacheRequests.ofEntries_perm hkeys hperm hrequests)
    exact ⟨requests', part_caches_eq_ok_iff.mpr (.inr ⟨caches', hfound', hrequests'⟩), hrel⟩

theorem ofGlobals_reordered {globals globals' : Entries} {config : Config}
    (hproper : (Value.dict globals).Proper) (hreordered : Reordered globals globals')
    (h : ofGlobals globals = .ok config) :
    ∃ config', ofGlobals globals' = .ok config' ∧
      ∀ tier, Option.Rel CacheRequest.Shuffled (config.request tier) (config'.request tier) := by
  obtain ⟨requests, level, worker, trace, hcaches, hlevel, hworker, htrace, rfl⟩ :=
    ofGlobals_eq_ok_iff.mp h
  obtain ⟨requests', hcaches', hrel⟩ := part_caches_reordered hproper hreordered hcaches
  have hother {name : Text} (hname : name ≠ "caches") := hreordered.others name hname
  refine ⟨_, ofGlobals_eq_ok_iff.mpr ⟨requests', level, worker, trace, hcaches', ?_, ?_, ?_, rfl⟩,
    fun tier => ?_⟩
  · rw [part_congr (hother (by decide)), hlevel]
  · rw [part_congr (hother (by decide)), hworker]
  · rw [part_congr (hother (by decide)), htrace]
  · have htier := hrel tier
    cases tier <;> exact htier

end Config

end Foreman
