import Foreman.Cache.Tag
import Foreman.Enumeration.Basic
import Foreman.Failure
import Foreman.Session.Event
import Foreman.Session.LogLevel

namespace Foreman

namespace Enumeration

variable {α : Type} [Enumeration α]

def spellings (a : α) : List Text := [camel a, snake a]

def SameName (α : Type) [Enumeration α] (name other : Text) : Prop :=
  name = other ∨ ∃ a ∈ (values : List α), name ∈ spellings a ∧ other ∈ spellings a

instance (name other : Text) : Decidable (SameName α name other) :=
  inferInstanceAs (Decidable (_ ∨ _))

-- Two lists hold the same names, in whatever order, however often, and however they are spelled.
def SameNames (α : Type) [Enumeration α] (names others : List Text) : Prop :=
  (∀ name ∈ names, ∃ other ∈ others, SameName α name other) ∧
    ∀ other ∈ others, ∃ name ∈ names, SameName α other name

instance (names others : List Text) : Decidable (SameNames α names others) :=
  inferInstanceAs (Decidable (_ ∧ _))

end Enumeration

open Enumeration

-- The names tell the values apart, as they do in all the types here.
class LawfulEnumeration (α : Type) [Enumeration α] : Prop where
  spellings_disjoint : ∀ a ∈ (values : List α), ∀ b ∈ values, ∀ name ∈ spellings a,
    name ∈ spellings b → a = b

instance : LawfulEnumeration CacheTag := ⟨by decide +kernel⟩

instance : LawfulEnumeration CacheTier := ⟨by decide +kernel⟩

instance : LawfulEnumeration Channel := ⟨by decide +kernel⟩

instance : LawfulEnumeration ExitCode := ⟨by decide +kernel⟩

instance : LawfulEnumeration FailureKind := ⟨by decide +kernel⟩

instance : LawfulEnumeration LogLevel := ⟨by decide +kernel⟩

namespace Enumeration

variable {α : Type} [Enumeration α] {a : α} {name other : Text}

theorem named_iff : (decide (camel a = name) || decide (snake a = name)) = true ↔
    name ∈ spellings a := by
  rw [Bool.or_eq_true, decide_eq_true_iff, decide_eq_true_iff, spellings, List.mem_cons,
    List.mem_singleton, @eq_comm _ name, @eq_comm _ name]

theorem ofName?_eq [LawfulEnumeration α] (ha : a ∈ values) (hname : name ∈ spellings a) :
    ofName? name = some a := by
  unfold ofName?
  cases hfind : (values : List α).find? fun a => camel a = name || snake a = name with
  | none => exact absurd (named_iff.mpr hname) (List.find?_eq_none.mp hfind a ha)
  | some b =>
    have hnamed := List.find?_some hfind
    have hb := List.mem_of_find?_eq_some hfind
    rw [LawfulEnumeration.spellings_disjoint b hb a ha name (named_iff.mp hnamed) hname]

theorem SameName.ofName?_eq [LawfulEnumeration α] (h : SameName α name other) :
    (ofName? name : Option α) = ofName? other := by
  rcases h with rfl | ⟨a, ha, hname, hother⟩
  · rfl
  · rw [Enumeration.ofName?_eq ha hname, Enumeration.ofName?_eq ha hother]

end Enumeration

end Foreman
