import Foreman.Script.Access

namespace Foreman.Script

namespace Value

mutual

theorem same_self : ∀ value : Value, same value value
  | none => rfl
  | bool b => beq_self_eq_true b
  | int n => beq_self_eq_true n
  | float text => beq_self_eq_true text
  | str text => beq_self_eq_true text
  | list items => sameItems_self items
  | tuple items => sameItems_self items
  | dict entries => sameEntries_self entries

theorem sameItems_self : ∀ items : List Value, sameItems items items
  | [] => rfl
  | item :: items => Bool.and_eq_true_iff.mpr ⟨same_self item, sameItems_self items⟩

theorem sameEntries_self : ∀ entries : List (Value × Value), sameEntries entries entries
  | [] => rfl
  | (key, value) :: entries => by
    have hentry : same key key && same value value :=
      Bool.and_eq_true_iff.mpr ⟨same_self key, same_self value⟩
    exact Bool.and_eq_true_iff.mpr ⟨hentry, sameEntries_self entries⟩

end

theorem sameKey_self (value : Value) : value.sameKey value := by
  unfold sameKey
  cases value.number? with
  | none => exact same_self value
  | some n => exact beq_self_eq_true n

theorem beq_str_iff (value : Value) (name : Text) : value == .str name ↔ value = .str name := by
  cases value with
  | str text =>
    change (text == name) = true ↔ Value.str text = .str name
    rw [beq_iff_eq, Value.str.injEq]
  | none | bool | int | float | list | tuple | dict => exact iff_of_false nofun nofun

end Value

namespace Entries

def Distinct (entries : Entries) : Prop :=
  entries.Pairwise fun a b => a.1 ≠ b.1

variable {entries entries' : Entries} {name : Text} {value : Value}

theorem Distinct.perm (h : entries.Distinct) (hperm : entries.Perm entries') : entries'.Distinct :=
  (hperm.pairwise_iff fun h => Ne.symm h).mp h

theorem key_of_mem_put {key : Value} {e : Value × Value} (h : e ∈ entries.put key value) :
    (∃ a ∈ entries, a.1 = e.1) ∨ e.1 = key := by
  induction entries with
  | nil => exact .inr (congrArg Prod.fst (List.mem_singleton.mp h))
  | cons a rest ih =>
    unfold put at h
    split at h
    · rcases List.mem_cons.mp h with rfl | hmem
      · exact .inl ⟨a, List.mem_cons_self, rfl⟩
      · exact .inl ⟨e, List.mem_cons_of_mem a hmem, rfl⟩
    · rcases List.mem_cons.mp h with rfl | hmem
      · exact .inl ⟨e, List.mem_cons_self, rfl⟩
      · rcases ih hmem with ⟨b, hb, hkey⟩ | hkey
        · exact .inl ⟨b, List.mem_cons_of_mem a hb, hkey⟩
        · exact .inr hkey

theorem Distinct.put (h : entries.Distinct) (key value : Value) :
    (entries.put key value).Distinct := by
  induction entries with
  | nil => exact List.pairwise_singleton _ _
  | cons a rest ih =>
    obtain ⟨hhead, hrest⟩ := List.pairwise_cons.mp h
    unfold Entries.put
    split
    · exact List.pairwise_cons.mpr ⟨hhead, hrest⟩
    case isFalse hsame =>
      refine List.pairwise_cons.mpr ⟨fun e he => ?_, ih hrest⟩
      rcases key_of_mem_put he with ⟨b, hb, hkey⟩ | rfl
      · exact hkey ▸ hhead b hb
      · intro hkey
        exact hsame (hkey ▸ a.1.sameKey_self)

theorem distinct_ofList (pairs : List (Value × Value)) : (ofList pairs).Distinct := by
  have hfoldl (entries : Entries) (h : entries.Distinct) :
      (pairs.foldl (fun entries e => put entries e.1 e.2) entries).Distinct := by
    induction pairs generalizing entries with
    | nil => exact h
    | cons e rest ih => exact ih _ (h.put e.1 e.2)
  exact hfoldl [] List.Pairwise.nil

theorem find?_cons_of_ne {key : Value} (h : key ≠ .str name) (value : Value) (rest : Entries) :
    find? ((key, value) :: rest) name = find? rest name := by
  unfold find?
  rw [List.find?_cons_of_neg]
  exact fun hkey => h ((Value.beq_str_iff key name).mp hkey)

theorem find?_cons_self (name : Text) (value : Value) (rest : Entries) :
    find? ((.str name, value) :: rest) name = some value := by
  unfold find?
  rw [List.find?_cons_of_pos]
  · rfl
  · exact (Value.beq_str_iff _ _).mpr rfl

theorem find?_singleton (key name : Text) (value : Value) :
    find? [(.str key, value)] name = if name = key then some value else none := by
  by_cases h : name = key
  · subst h
    rw [if_pos rfl, find?_cons_self]
  · rw [if_neg h, find?_cons_of_ne fun hkey => h (Value.str.inj hkey).symm]
    rfl

theorem find?_eq_none_iff : entries.find? name = none ↔ ∀ e ∈ entries, e.1 ≠ .str name := by
  simp only [find?, Option.map_eq_none_iff, List.find?_eq_none, Value.beq_str_iff, ne_eq]

theorem mem_of_find? (h : entries.find? name = some value) : (.str name, value) ∈ entries := by
  obtain ⟨e, hfind, rfl⟩ := Option.map_eq_some_iff.mp h
  have hbeq := List.find?_some hfind
  rw [← (Value.beq_str_iff e.1 name).mp hbeq]
  exact List.mem_of_find?_eq_some hfind

-- The induction is on the entries. None of the later ones can be about the key of the first one.
theorem find?_of_mem (hkeys : entries.Distinct) (h : (.str name, value) ∈ entries) :
    entries.find? name = some value := by
  induction entries with
  | nil => cases h
  | cons e rest ih =>
    obtain ⟨hhead, hrest⟩ := List.pairwise_cons.mp hkeys
    rcases List.mem_cons.mp h with rfl | hmem
    · exact find?_cons_self name value rest
    · have hne : e.1 ≠ .str name := hhead _ hmem
      rw [find?_cons_of_ne hne, ih hrest hmem]

theorem find?_perm (hkeys : entries.Distinct) (hperm : entries.Perm entries') (name : Text) :
    entries'.find? name = entries.find? name := by
  cases h : entries.find? name with
  | none =>
    rw [find?_eq_none_iff] at h ⊢
    exact fun e he => h e (hperm.mem_iff.mpr he)
  | some value =>
    exact find?_of_mem (hkeys.perm hperm) (hperm.mem_iff.mp (mem_of_find? h))

end Entries

-- All dictionaries inside a value are such that no key comes twice.
inductive Value.Proper : Value → Prop where
  | none : Proper .none
  | bool (b : Bool) : Proper (.bool b)
  | int (n : Int) : Proper (.int n)
  | float (text : Text) : Proper (.float text)
  | str (text : Text) : Proper (.str text)
  | list {items : List Value} (h : ∀ item ∈ items, Proper item) : Proper (.list items)
  | tuple {items : List Value} (h : ∀ item ∈ items, Proper item) : Proper (.tuple items)
  | dict {entries : Entries} (hkeys : entries.Distinct) (hnames : ∀ e ∈ entries, Proper e.1)
      (hvalues : ∀ e ∈ entries, Proper e.2) : Proper (.dict entries)

namespace Value.Proper

theorem distinct {entries : Entries} (h : Proper (.dict entries)) : entries.Distinct := by
  cases h with
  | dict hkeys hnames hvalues => exact hkeys

theorem value {entries : Entries} (h : Proper (.dict entries)) {e : Value × Value}
    (he : e ∈ entries) : e.2.Proper := by
  cases h with
  | dict hkeys hnames hvalues => exact hvalues e he

theorem find? {entries : Entries} (h : Proper (.dict entries)) {name : Text} {value : Value}
    (hfind : entries.find? name = some value) : value.Proper :=
  h.value (Entries.mem_of_find? hfind)

end Value.Proper

namespace Access

theorem text_eq_ok_iff {value : Value} {name : Text} :
    text value = .ok name ↔ value = .str name := by
  cases value with
  | str text =>
    change (Except.ok text : Except Text Text) = .ok name ↔ Value.str text = .str name
    rw [Except.ok.injEq, Value.str.injEq]
  | none | bool | int | float | list | tuple | dict => exact iff_of_false nofun nofun

theorem text_of_no_text {key : Value} (h : ∀ name, key ≠ .str name) :
    text key = .error (ValueError.wrongType key.typeName "str").message := by
  cases key with
  | str name => exact absurd rfl (h name)
  | none | bool | int | float | list | tuple | dict => rfl

theorem dict_eq_ok_iff {value : Value} {entries : Entries} :
    dict value = .ok entries ↔ value = .dict entries := by
  cases value with
  | dict found =>
    change (Except.ok found : Except Text Entries) = .ok entries ↔ Value.dict found = .dict entries
    rw [Except.ok.injEq, Value.dict.injEq]
  | none | bool | int | float | str | list | tuple => exact iff_of_false nofun nofun

end Access

end Foreman.Script
