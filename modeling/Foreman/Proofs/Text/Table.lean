import Foreman.Text.Table

namespace Foreman.Table

variable {α : Type}

theorem lookup_cons_ite (key : Text) (e : Text × α) (rest : List (Text × α)) :
    (e :: rest).lookup key = if key = e.1 then some e.2 else rest.lookup key := by
  by_cases h : key = e.1
  · rw [if_pos h, List.lookup_cons, beq_iff_eq.mpr h]
  · rw [if_neg h, List.lookup_cons, beq_eq_false_iff_ne.mpr h]

theorem find?_eq_lookup (t : Table α) (key : Text) : t.find? key = t.entries.lookup key := by
  unfold find?
  induction t.entries with
  | nil => rfl
  | cons e rest ih =>
    rw [lookup_cons_ite]
    by_cases h : key = e.1
    · simp [h]
    · rw [if_neg h, ← ih, List.find?_cons_of_neg (by simpa using Ne.symm h)]

-- The induction is on the entries. The new one goes in front of the first greater key, and an entry
-- with its own key is overwritten.
theorem lookup_insertEntry (key k : Text) (v : α) (entries : List (Text × α)) :
    (insertEntry k v entries).lookup key = if key = k then some v else entries.lookup key := by
  induction entries with
  | nil => rw [insertEntry, lookup_cons_ite]
  | cons e rest ih =>
    unfold insertEntry
    by_cases hlt : k < e.1
    · rw [if_pos hlt, lookup_cons_ite]
    rw [if_neg hlt]
    by_cases heq : k = e.1
    · rw [if_pos heq, lookup_cons_ite, lookup_cons_ite]
      by_cases h : key = k
      · rw [if_pos h, if_pos h]
      · rw [if_neg h, if_neg h, if_neg (heq ▸ h)]
    · rw [if_neg heq, lookup_cons_ite, lookup_cons_ite, ih]
      by_cases h : key = e.1
      · rw [if_pos h, if_pos h, if_neg (fun hk => heq (hk.symm.trans h))]
      · rw [if_neg h, if_neg h]

theorem find?_insert (t : Table α) (key k : Text) (v : α) :
    (t.insert k v).find? key = if key = k then some v else t.find? key := by
  rw [find?_eq_lookup, find?_eq_lookup]
  exact lookup_insertEntry key k v t.entries

theorem find?_insert_self (t : Table α) (k : Text) (v : α) : (t.insert k v).find? k = some v := by
  rw [find?_insert, if_pos rfl]

theorem lookup_eq_none_of_keys {key : Text} {pairs : List (Text × α)}
    (h : ∀ e ∈ pairs, e.1 ≠ key) : pairs.lookup key = none := by
  rw [List.lookup_eq_none_iff]
  intro e he
  exact bne_iff_ne.mpr (Ne.symm (h e he))

theorem lookup_eq_some_of_mem {pairs : List (Text × α)} {e : Text × α}
    (hkeys : pairs.Pairwise fun a b => a.1 ≠ b.1) (he : e ∈ pairs) :
    pairs.lookup e.1 = some e.2 := by
  induction pairs with
  | nil => cases he
  | cons head rest ih =>
    obtain ⟨hhead, hrest⟩ := List.pairwise_cons.mp hkeys
    rw [lookup_cons_ite]
    rcases List.mem_cons.mp he with rfl | hmem
    · rw [if_pos rfl]
    · rw [if_neg (Ne.symm (hhead e hmem)), ih hrest hmem]

theorem lookup_perm {pairs pairs' : List (Text × α)}
    (hkeys : pairs.Pairwise fun a b => a.1 ≠ b.1) (hperm : pairs.Perm pairs') (key : Text) :
    pairs'.lookup key = pairs.lookup key := by
  have hkeys' : pairs'.Pairwise fun a b => a.1 ≠ b.1 :=
    (hperm.pairwise_iff fun h => Ne.symm h).mp hkeys
  by_cases h : ∃ e ∈ pairs, e.1 = key
  · obtain ⟨e, he, rfl⟩ := h
    rw [lookup_eq_some_of_mem hkeys he, lookup_eq_some_of_mem hkeys' (hperm.mem_iff.mp he)]
  · have hnone : ∀ e ∈ pairs, e.1 ≠ key := fun e he hkey => h ⟨e, he, hkey⟩
    have hnone' : ∀ e ∈ pairs', e.1 ≠ key := fun e he => hnone e (hperm.mem_iff.mpr he)
    rw [lookup_eq_none_of_keys hnone, lookup_eq_none_of_keys hnone']

-- Entries that are put in turn cover what was there. No key comes twice among them, so that their
-- order does not matter.
theorem find?_insertAll {pairs : List (Text × α)}
    (hkeys : pairs.Pairwise fun a b => a.1 ≠ b.1) (t : Table α) (key : Text) :
    (t.insertAll pairs).find? key = (pairs.lookup key).or (t.find? key) := by
  induction pairs generalizing t with
  | nil => rfl
  | cons e rest ih =>
    obtain ⟨hhead, hrest⟩ := List.pairwise_cons.mp hkeys
    have hstep : (t.insertAll (e :: rest)).find? key =
        (rest.lookup key).or ((t.insert e.1 e.2).find? key) := ih hrest (t.insert e.1 e.2)
    rw [hstep, find?_insert, lookup_cons_ite]
    by_cases h : key = e.1
    · have hnone : rest.lookup key = none :=
        lookup_eq_none_of_keys fun a ha hkey => hhead a ha (h.symm.trans hkey.symm)
      rw [if_pos h, if_pos h, hnone]
      rfl
    · rw [if_neg h, if_neg h]

theorem keys_distinct (t : Table α) : t.entries.Pairwise fun a b => a.1 ≠ b.1 := by
  refine t.sorted.imp ?_
  intro a b hlt heq
  rw [heq] at hlt
  exact List.lt_irrefl _ hlt

theorem find?_eq_some_of_mem {t : Table α} {e : Text × α} (he : e ∈ t.entries) :
    t.find? e.1 = some e.2 := by
  rw [find?_eq_lookup]
  exact lookup_eq_some_of_mem t.keys_distinct he

theorem mem_of_lookup {pairs : List (Text × α)} {key : Text} {value : α}
    (h : pairs.lookup key = some value) : (key, value) ∈ pairs := by
  obtain ⟨front, back, rfl, -⟩ := List.lookup_eq_some_iff.mp h
  exact List.mem_append_right front List.mem_cons_self

theorem mem_of_find? {t : Table α} {key : Text} {value : α} (h : t.find? key = some value) :
    (key, value) ∈ t.entries := by
  rw [find?_eq_lookup] at h
  exact mem_of_lookup h

theorem sorted_keys (t : Table α) : t.keys.Pairwise (· < ·) :=
  List.pairwise_map.mpr t.sorted

theorem isSome_find?_iff (t : Table α) (key : Text) : (t.find? key).isSome ↔ key ∈ t.keys := by
  simp only [find?, keys, Option.isSome_map, List.find?_isSome, List.mem_map, decide_eq_true_eq]

theorem find?_insertAll_entries (t upper : Table α) (key : Text) :
    (t.insertAll upper.entries).find? key = (upper.find? key).or (t.find? key) := by
  rw [find?_insertAll upper.keys_distinct, ← find?_eq_lookup]

theorem mem_insertAll {t : Table α} {pairs : List (Text × α)} {e : Text × α}
    (h : e ∈ (t.insertAll pairs).entries) : e ∈ pairs ∨ e ∈ t.entries := by
  induction pairs generalizing t with
  | nil => exact .inr h
  | cons head rest ih =>
    rcases ih (t := t.insert head.1 head.2) h with hrest | hinsert
    · exact .inl (List.mem_cons_of_mem _ hrest)
    · rcases mem_insertEntry hinsert with rfl | hold
      · exact .inl List.mem_cons_self
      · exact .inr hold

theorem insertEntry_of_greater {k : Text} {entries : List (Text × α)}
    (h : ∀ e ∈ entries, e.1 < k) (v : α) : insertEntry k v entries = entries ++ [(k, v)] := by
  induction entries with
  | nil => rfl
  | cons head rest ih =>
    have hhead : head.1 < k := h head List.mem_cons_self
    have hne : k ≠ head.1 := fun heq => List.lt_irrefl _ (heq ▸ hhead)
    rw [insertEntry, if_neg (List.lt_asymm hhead), if_neg hne,
      ih fun e he => h e (List.mem_cons_of_mem _ he), List.cons_append]

-- The induction is on the entries that are still to come, all of which are greater.
theorem entries_insertAll (t : Table α) {pairs : List (Text × α)}
    (h : (t.entries ++ pairs).Pairwise fun a b => a.1 < b.1) :
    (t.insertAll pairs).entries = t.entries ++ pairs := by
  induction pairs generalizing t with
  | nil => exact (List.append_nil _).symm
  | cons head rest ih =>
    have hentries : (t.insert head.1 head.2).entries = t.entries ++ [head] :=
      insertEntry_of_greater (fun e he => (List.pairwise_append.mp h).2.2 e he head
        List.mem_cons_self) head.2
    have hrest : ((t.insert head.1 head.2).entries ++ rest).Pairwise fun a b => a.1 < b.1 := by
      rwa [hentries, List.append_assoc, List.singleton_append]
    rw [← List.singleton_append, ← List.append_assoc, ← hentries]
    exact ih (t.insert head.1 head.2) hrest

theorem ofList_entries (t : Table α) : ofList t.entries = t := by
  have hentries : (ofList t.entries).entries = t.entries := entries_insertAll empty t.sorted
  cases t
  cases h : ofList _
  rw [h] at hentries
  cases hentries
  rfl

end Foreman.Table
