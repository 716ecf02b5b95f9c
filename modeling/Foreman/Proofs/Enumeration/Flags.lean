import Foreman.Enumeration.Flags
import Foreman.Proofs.Enumeration.Names
import Foreman.Proofs.Session.Act
import Foreman.Proofs.Text.Split
import Mathlib.Data.List.Basic

namespace Foreman.Flags

open Enumeration

variable {α : Type}

theorem union_comm (a b : Flags α) : a.union b = b.union a :=
  Flags.ext (UInt8.or_comm a.bits b.bits)

theorem union_assoc (a b c : Flags α) : (a.union b).union c = a.union (b.union c) :=
  Flags.ext (UInt8.or_assoc a.bits b.bits c.bits)

theorem union_self (a : Flags α) : a.union a = a :=
  Flags.ext UInt8.or_self

theorem none_union (a : Flags α) : none.union a = a :=
  Flags.ext UInt8.zero_or

theorem union_none (a : Flags α) : a.union none = a :=
  Flags.ext UInt8.or_zero

variable [Enumeration α] {flags start : Flags α} {v : α} {vs ws : List α} {sep other : UInt8}
  {text text' : Text} {names : List Text}

-- The start of the fold is joined to what the values make of an empty start.
theorem foldl_union (start : Flags α) (vs : List α) :
    vs.foldl (fun flags v => flags.union (single v)) start = start.union (ofList vs) := by
  unfold ofList
  induction vs generalizing start with
  | nil => exact (union_none start).symm
  | cons v vs ih =>
    rw [List.foldl_cons, List.foldl_cons, ih, ih (none.union (single v)), none_union, union_assoc]

theorem ofList_append (vs ws : List α) : ofList (vs ++ ws) = (ofList vs).union (ofList ws) := by
  rw [ofList, List.foldl_append, foldl_union]
  rfl

theorem ofList_cons (v : α) (vs : List α) : ofList (v :: vs) = (single v).union (ofList vs) := by
  rw [ofList, List.foldl_cons, foldl_union, none_union]

theorem union_of_mem (h : v ∈ vs) : (single v).union (ofList vs) = ofList vs := by
  induction vs with
  | nil => cases h
  | cons w vs ih =>
    rw [ofList_cons]
    rcases List.mem_cons.mp h with rfl | hrest
    · rw [← union_assoc, union_self]
    · rw [← union_assoc, union_comm (single v), union_assoc, ih hrest]

theorem union_of_subset (h : vs ⊆ ws) : (ofList vs).union (ofList ws) = ofList ws := by
  induction vs with
  | nil => exact none_union (ofList ws)
  | cons v vs ih =>
    obtain ⟨hv, hvs⟩ := List.cons_subset.mp h
    rw [ofList_cons, union_assoc, ih hvs, union_of_mem hv]

theorem ofList_congr (h : ∀ v, v ∈ vs ↔ v ∈ ws) : ofList vs = ofList ws := by
  rw [← union_of_subset (fun v => (h v).mpr), union_comm, union_of_subset fun v => (h v).mp]

-- The names that a text lists: what stands between separators, less the blanks around. Nothing
-- between two separators is no name, but blanks alone are the empty name.
def listed (sep : UInt8) (text : Text) : List Text :=
  ((Text.split sep text).filter fun piece => !piece.isEmpty).map Text.strip

theorem listed_append (sep : UInt8) (front back : Text) :
    listed sep (front ++ sep :: back) = listed sep front ++ listed sep back := by
  rw [listed, Text.split_append_cons, List.filter_append, List.map_append]
  rfl

def addName (flags : Flags α) (name : Text) : Except Text (Flags α) :=
  (ofName name).map fun v => flags.union (single v)

theorem parse_eq (sep : UInt8) (text : Text) :
    (parse sep text : Except Text (Flags α)) = (listed sep text).foldlM addName none := by
  unfold parse listed
  generalize (none : Flags α) = start
  generalize Text.split sep text = pieces
  induction pieces generalizing start with
  | nil => rfl
  | cons piece pieces ih =>
    by_cases hempty : piece.isEmpty
    · rw [List.foldlM_cons, if_pos hempty, List.filter_cons_of_neg (by simp [hempty])]
      exact ih start
    · rw [List.foldlM_cons, if_neg hempty, List.filter_cons_of_pos (by simp [hempty]),
        List.map_cons, List.foldlM_cons]
      exact congrArg (addName start (Text.strip piece) >>= ·) (funext ih)

-- The induction is on the names. Each has to be the name of a value, which is joined to the set.
theorem foldlM_addName_eq_ok_iff : names.foldlM addName start = .ok flags ↔
    (∀ name ∈ names, ∃ v : α, ofName? name = some v) ∧
      flags = start.union (ofList (names.filterMap ofName?)) := by
  induction names generalizing start with
  | nil =>
    rw [List.filterMap_nil, ofList, List.foldl_nil, union_none]
    simp [pure, Except.pure, eq_comm]
  | cons name names ih =>
    rw [List.foldlM_cons, bind_eq_ok_iff, List.forall_mem_cons]
    cases hname : (ofName? name : Option α) with
    | none =>
      have hadd : addName start name = .error (unknownName α name) := by
        rw [addName, ofName, hname]
        rfl
      simp [hadd]
    | some v =>
      have hadd : addName start name = .ok (start.union (single v)) := by
        rw [addName, ofName, hname]
        rfl
      rw [List.filterMap_cons_some hname, ofList_cons, ← union_assoc]
      simp [hadd, ih]

theorem parse_eq_ok_iff : parse sep text = .ok flags ↔
    (∀ name ∈ listed sep text, ∃ v : α, ofName? name = some v) ∧
      flags = ofList ((listed sep text).filterMap ofName?) := by
  rw [parse_eq, foldlM_addName_eq_ok_iff, none_union]

theorem parse_append (sep : UInt8) (front back : Text) (flags : Flags α) :
    parse sep (front ++ sep :: back) = .ok flags ↔
      ∃ a b, parse sep front = .ok a ∧ parse sep back = .ok b ∧ flags = a.union b := by
  simp only [parse_eq_ok_iff, listed_append, List.forall_mem_append, List.filterMap_append,
    ofList_append]
  constructor
  · rintro ⟨⟨hfront, hback⟩, rfl⟩
    exact ⟨_, _, ⟨hfront, rfl⟩, ⟨hback, rfl⟩, rfl⟩
  · rintro ⟨a, b, ⟨hfront, rfl⟩, ⟨hback, rfl⟩, rfl⟩
    exact ⟨⟨hfront, hback⟩, rfl⟩

theorem parse_of_same
    (h : ∀ name ∈ listed sep text, ∃ name' ∈ listed other text',
      (ofName? name : Option α) = ofName? name')
    (h' : ∀ name' ∈ listed other text', ∃ name ∈ listed sep text,
      (ofName? name' : Option α) = ofName? name)
    (hparse : parse sep text = .ok flags) : parse other text' = .ok flags := by
  obtain ⟨hknown, rfl⟩ := parse_eq_ok_iff.mp hparse
  refine parse_eq_ok_iff.mpr ⟨fun name' hname' => ?_, ofList_congr fun v => ?_⟩
  · obtain ⟨name, hname, heq⟩ := h' name' hname'
    exact heq ▸ hknown name hname
  · simp only [List.mem_filterMap]
    constructor
    · rintro ⟨name, hname, hv⟩
      obtain ⟨name', hname', heq⟩ := h name hname
      exact ⟨name', hname', heq ▸ hv⟩
    · rintro ⟨name', hname', hv⟩
      obtain ⟨name, hname, heq⟩ := h' name' hname'
      exact ⟨name, hname, heq ▸ hv⟩

-- Two lists with a separator between them are read exactly if both are, as the union of what they
-- are read as. What a list is read as depends on the names that it lists only, and not on their
-- order and repetition, on blanks around them or on empty elements, nor, if the names tell the
-- values apart, on which of the two spellings they have.
theorem parsing_of_lists {α : Type} [Enumeration α] :
    (∀ (sep : UInt8) (front back : Text) (flags : Flags α),
      parse sep (front ++ sep :: back) = .ok flags ↔
        ∃ a b, parse sep front = .ok a ∧ parse sep back = .ok b ∧ flags = a.union b) ∧
    (∀ (sep other : UInt8) (text text' : Text),
      (∀ name, name ∈ listed sep text ↔ name ∈ listed other text') →
        ∀ flags : Flags α, parse sep text = .ok flags ↔ parse other text' = .ok flags) ∧
    (LawfulEnumeration α → ∀ (sep other : UInt8) (text text' : Text),
      SameNames α (listed sep text) (listed other text') →
        ∀ flags : Flags α, parse sep text = .ok flags ↔ parse other text' = .ok flags) := by
  refine ⟨parse_append, fun sep other text text' hnames flags => ?_,
    fun _ sep other text text' hnames flags => ?_⟩
  · have hsame : ∀ {names others : List Text}, (∀ name, name ∈ names → name ∈ others) →
        ∀ name ∈ names, ∃ other ∈ others, (ofName? name : Option α) = ofName? other :=
      fun h name hname => ⟨name, h name hname, rfl⟩
    have h := hsame fun name => (hnames name).mp
    have h' := hsame fun name => (hnames name).mpr
    exact ⟨parse_of_same h h', parse_of_same h' h⟩
  · have hsame : ∀ {names others : List Text},
        (∀ name ∈ names, ∃ other ∈ others, SameName α name other) →
        ∀ name ∈ names, ∃ other ∈ others, (ofName? name : Option α) = ofName? other := by
      intro names others h name hname
      obtain ⟨other, hother, hsame⟩ := h name hname
      exact ⟨other, hother, hsame.ofName?_eq⟩
    have h := hsame hnames.1
    have h' := hsame hnames.2
    exact ⟨parse_of_same h h', parse_of_same h' h⟩

theorem parsing_of_tag_lists :
    SameNames CacheTag (listed ',' "SharedDir,,dir ,Dir") (listed ':' "\tdir:shared_dir") ∧
      parse ',' "SharedDir,,dir ,Dir" = .ok (ofList [CacheTag.dir, .sharedDir]) ∧
      parse ':' "\tdir:shared_dir" = .ok (ofList [CacheTag.dir, .sharedDir]) := by
  have hnames : SameNames CacheTag (listed ',' "SharedDir,,dir ,Dir")
      (listed ':' "\tdir:shared_dir") := by decide +kernel
  have hparse : parse ',' "SharedDir,,dir ,Dir" = .ok (ofList [CacheTag.dir, .sharedDir]) := by
    decide +kernel
  exact ⟨hnames, hparse, (parsing_of_lists.2.2 inferInstance _ _ _ _ hnames _).mp hparse⟩

-- Nothing between two separators is passed over, but blanks alone are the empty name.
example : parse ',' "dir,,http" = .ok (ofList [CacheTag.dir, .http]) ∧
    (parse ',' "dir, ,http" : Except Text (Flags CacheTag)) =
      .error (unknownName CacheTag []) := by decide +kernel

end Foreman.Flags
