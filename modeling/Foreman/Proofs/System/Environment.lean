import Foreman.Proofs.Text.Table
import Foreman.Proofs.Text.Terminated
import Foreman.System.Environment

namespace Foreman

namespace Environment

variable {env : Environment} {name value string : Text} {e : Text × Text}

-- No name goes on past the equals sign that is to end it.
def Splits (env : Environment) : Prop :=
  ∀ e ∈ env.entries, ('=' : UInt8) ∉ e.1

def NulFree (env : Environment) : Prop :=
  ∀ e ∈ env.entries, e.1.NulFree ∧ e.2.NulFree

theorem nulFree_iff_find? :
    env.NulFree ↔ ∀ name value, env.find? name = some value → name.NulFree ∧ value.NulFree :=
  ⟨fun h _ _ hfind => h _ (Table.mem_of_find? hfind),
    fun h _ he => h _ _ (Table.find?_eq_some_of_mem he)⟩

theorem entryOf_append (h : ('=' : UInt8) ∉ name) (value : Text) :
    entryOf (name ++ "=" ++ value) = some (name, value) := by
  have hname : ∀ c ∈ name, c != ('=' : UInt8) := by
    intro c hc
    rw [bne_iff_ne]
    rintro rfl
    exact h hc
  have hstring : name ++ "=" ++ value = name ++ ('=' : UInt8) :: value :=
    List.append_assoc name _ value
  have hcontains : (name ++ ('=' : UInt8) :: value).contains ('=' : UInt8) := by
    rw [List.contains_iff_mem]
    exact List.mem_append_right _ List.mem_cons_self
  rw [entryOf, hstring, if_pos hcontains, List.takeWhile_append_of_pos hname,
    List.dropWhile_append_of_pos hname, List.takeWhile_cons_of_neg (by simp),
    List.dropWhile_cons_of_neg (by simp), List.append_nil, List.tail_cons]

theorem of_entryOf (h : entryOf string = some e) :
    string = e.1 ++ "=" ++ e.2 ∧ ('=' : UInt8) ∉ e.1 := by
  by_cases hmem : ('=' : UInt8) ∈ string
  · obtain ⟨name, value, rfl, hname⟩ := List.eq_append_cons_of_mem hmem
    have hstring : name ++ ('=' : UInt8) :: value = name ++ "=" ++ value :=
      (List.append_assoc name "=" value).symm
    rw [hstring, entryOf_append hname] at h
    cases h
    exact ⟨hstring, hname⟩
  · rw [entryOf, if_neg (mt List.contains_iff_mem.mp hmem)] at h
    cases h

theorem nulFree_of_mem_strings (h : string ∈ env.strings) : string.NulFree := by
  obtain ⟨e, -, rfl⟩ := List.mem_map.mp h
  exact Text.nulFree_untilNul _

theorem exists_string_of_mem {strings : List Text} (he : e ∈ (ofStrings strings).entries) :
    ∃ string ∈ strings, entryOf string = some e := by
  rcases Table.mem_insertAll he with hpairs | hempty
  · exact List.mem_filterMap.mp hpairs
  · cases hempty

theorem splits_ofStrings (strings : List Text) : (ofStrings strings).Splits := by
  intro e he
  obtain ⟨string, -, hentry⟩ := exists_string_of_mem he
  exact (of_entryOf hentry).2

theorem nulFree_ofStrings_strings (env : Environment) : (ofStrings env.strings).NulFree := by
  intro e he
  obtain ⟨string, hstring, hentry⟩ := exists_string_of_mem he
  have hfree := nulFree_of_mem_strings hstring
  rw [(of_entryOf hentry).1, Text.nulFree_append_iff, Text.nulFree_append_iff] at hfree
  exact ⟨hfree.1.1, hfree.2⟩

theorem filterMap_entryOf_strings (hsplits : env.Splits) (hfree : env.NulFree) :
    env.strings.filterMap entryOf = env.entries := by
  rw [strings, List.filterMap_map]
  refine (List.filterMap_congr fun e he => ?_).trans List.filterMap_some
  obtain ⟨hname, hvalue⟩ := hfree e he
  have hwhole : (e.1 ++ "=" ++ e.2).NulFree :=
    Text.nulFree_append_iff.mpr ⟨Text.nulFree_append_iff.mpr ⟨hname, by decide⟩, hvalue⟩
  rw [Function.comp_apply, Text.untilNul_of_nulFree hwhole, entryOf_append (hsplits e he)]

theorem ofStrings_strings_eq_iff (hsplits : env.Splits) :
    ofStrings env.strings = env ↔ env.NulFree := by
  constructor
  · intro h
    have hfree := nulFree_ofStrings_strings env
    rwa [h] at hfree
  · intro hfree
    rw [ofStrings, filterMap_entryOf_strings hsplits hfree, Table.ofList_entries]

end Environment

end Foreman
