import Foreman.Text.Basic

namespace Foreman

structure Table (α : Type) where
  entries : List (Text × α)
  sorted : entries.Pairwise (fun a b => a.1 < b.1)

namespace Table

variable {α : Type}

def empty : Table α := ⟨[], .nil⟩

instance : Inhabited (Table α) := ⟨empty⟩

instance : EmptyCollection (Table α) := ⟨empty⟩

instance [DecidableEq α] : DecidableEq (Table α) := fun a b =>
  decidable_of_iff (a.entries = b.entries) (by
    constructor
    · intro h
      cases a
      cases b
      cases h
      rfl
    · intro h
      rw [h])

-- Puts an entry at its place, or overwrites the entry that has its key.
def insertEntry (k : Text) (v : α) : List (Text × α) → List (Text × α)
  | [] => [(k, v)]
  | e :: rest =>
    if k < e.1 then (k, v) :: e :: rest
    else if k = e.1 then (k, v) :: rest
    else e :: insertEntry k v rest

theorem mem_insertEntry {k : Text} {v : α} {l : List (Text × α)} {e : Text × α}
    (h : e ∈ insertEntry k v l) : e = (k, v) ∨ e ∈ l := by
  induction l with
  | nil => simpa [insertEntry] using h
  | cons head rest ih =>
    unfold insertEntry at h
    split at h
    · simpa using h
    · split at h
      · rcases List.mem_cons.1 h with h | h
        · exact .inl h
        · exact .inr (List.mem_cons_of_mem _ h)
      · rcases List.mem_cons.1 h with h | h
        · exact .inr (h ▸ List.mem_cons_self)
        · exact (ih h).imp_right (List.mem_cons_of_mem _)

theorem sorted_insertEntry {k : Text} {v : α} {l : List (Text × α)}
    (h : l.Pairwise (fun a b => a.1 < b.1)) :
    (insertEntry k v l).Pairwise (fun a b => a.1 < b.1) := by
  induction l with
  | nil => simp [insertEntry]
  | cons head rest ih =>
    obtain ⟨hhead, hrest⟩ := List.pairwise_cons.1 h
    unfold insertEntry
    split
    case isTrue hlt =>
      refine List.pairwise_cons.2 ⟨fun e he => ?_, h⟩
      rcases List.mem_cons.1 he with rfl | he
      · exact hlt
      · exact List.lt_trans hlt (hhead e he)
    case isFalse hnlt =>
      split
      case isTrue heq =>
        exact List.pairwise_cons.2 ⟨fun e he => heq ▸ hhead e he, hrest⟩
      case isFalse hne =>
        refine List.pairwise_cons.2 ⟨fun e he => ?_, ih hrest⟩
        rcases mem_insertEntry he with rfl | he
        · by_cases hlt : head.1 < k
          · exact hlt
          · exact absurd (List.le_antisymm (List.not_lt.1 hlt) (List.not_lt.1 hnlt)) hne
        · exact hhead e he

def insert (t : Table α) (k : Text) (v : α) : Table α :=
  ⟨insertEntry k v t.entries, sorted_insertEntry t.sorted⟩

def insertAll (t : Table α) (pairs : List (Text × α)) : Table α :=
  pairs.foldl (fun t e => t.insert e.1 e.2) t

def ofList (pairs : List (Text × α)) : Table α :=
  (empty : Table α).insertAll pairs

def erase (t : Table α) (k : Text) : Table α :=
  ⟨t.entries.filter (fun e => !decide (e.1 = k)), t.sorted.filter _⟩

def find? (t : Table α) (k : Text) : Option α :=
  (t.entries.find? fun e => decide (e.1 = k)).map (·.2)

def isEmpty (t : Table α) : Bool :=
  t.entries.isEmpty

def keys (t : Table α) : List Text :=
  t.entries.map (·.1)

end Table

abbrev NameSet := Table Unit

namespace NameSet

def ofList (names : List Text) : NameSet :=
  Table.ofList (names.map (·, ()))

def toList (s : NameSet) : List Text :=
  s.keys

end NameSet

end Foreman
