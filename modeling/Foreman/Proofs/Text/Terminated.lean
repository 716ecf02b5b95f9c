import Foreman.Text.Basic
import Mathlib.Data.List.Basic
import Mathlib.Data.List.TakeWhile

namespace Foreman.Text

-- A text that an interface for NUL-terminated strings sees as a whole.
def NulFree (t : Text) : Prop :=
  (0 : UInt8) ∉ t

instance (t : Text) : Decidable t.NulFree :=
  inferInstanceAs (Decidable ((0 : UInt8) ∉ t))

variable {t a b : Text}

theorem nulFree_untilNul (t : Text) : t.untilNul.NulFree := by
  intro h
  have hne := List.mem_takeWhile_imp h
  exact absurd rfl (bne_iff_ne.mp hne)

theorem untilNul_of_nulFree (h : t.NulFree) : t.untilNul = t := by
  refine List.takeWhile_eq_self_iff.mpr fun c hc => bne_iff_ne.mpr ?_
  rintro rfl
  exact h hc

theorem untilNul_eq_self_iff : t.untilNul = t ↔ t.NulFree :=
  ⟨fun h => h ▸ nulFree_untilNul t, untilNul_of_nulFree⟩

theorem untilNul_untilNul (t : Text) : t.untilNul.untilNul = t.untilNul :=
  untilNul_of_nulFree (nulFree_untilNul t)

theorem map_untilNul_eq_self_iff {texts : List Text} :
    texts.map untilNul = texts ↔ ∀ t ∈ texts, t.NulFree := by
  calc texts.map untilNul = texts
    _ ↔ texts.map untilNul = texts.map id := by rw [List.map_id]
    _ ↔ ∀ t ∈ texts, t.untilNul = t := List.map_eq_map_iff
    _ ↔ ∀ t ∈ texts, t.NulFree := forall₂_congr fun _ _ => untilNul_eq_self_iff

theorem nulFree_cons_iff {c : UInt8} : NulFree (c :: t) ↔ c ≠ 0 ∧ t.NulFree := by
  simp only [NulFree, List.mem_cons, not_or, ne_comm]

theorem nulFree_append_iff : (a ++ b).NulFree ↔ a.NulFree ∧ b.NulFree := by
  simp only [NulFree, List.mem_append, not_or]

theorem nulFree_join_iff {sep : UInt8} {pieces : List Text} (hsep : sep ≠ 0) :
    (join sep pieces).NulFree ↔ ∀ piece ∈ pieces, piece.NulFree := by
  induction pieces with
  | nil => exact iff_of_true List.not_mem_nil fun _ h => absurd h List.not_mem_nil
  | cons piece rest ih =>
    cases rest with
    | nil => rw [join, List.forall_mem_singleton]
    | cons next rest =>
      rw [join, nulFree_append_iff, nulFree_cons_iff, ih, List.forall_mem_cons (a := piece)]
      exact and_congr_right fun _ => and_iff_right hsep

theorem untilNul_cons {c : UInt8} (hc : c ≠ 0) (t : Text) :
    untilNul (c :: t) = c :: t.untilNul :=
  List.takeWhile_cons_of_pos (p := (· != 0)) (bne_iff_ne.mpr hc)

theorem untilNul_append_of_not_nulFree (h : ¬a.NulFree) (b : Text) :
    (a ++ b).untilNul = a.untilNul := by
  induction a with
  | nil => exact absurd List.not_mem_nil h
  | cons c a ih =>
    by_cases hc : c = 0
    · subst hc
      rfl
    · have hrest : ¬NulFree a := fun hfree => h (nulFree_cons_iff.mpr ⟨hc, hfree⟩)
      rw [List.cons_append, untilNul_cons hc, untilNul_cons hc, ih hrest]

end Foreman.Text
