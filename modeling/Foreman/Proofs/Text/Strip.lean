import Foreman.Text.Basic
import Mathlib.Data.List.TakeWhile

namespace Foreman.Text

theorem exists_around_strip (t : Text) :
    ∃ front back, t = front ++ strip t ++ back ∧ (∀ c ∈ front, isBlank c) ∧
      (∀ c ∈ back, isBlank c) := by
  have hleft : t = t.takeWhile isBlank ++ stripLeft t := List.takeWhile_append_dropWhile.symm
  have hright : stripLeft t =
      strip t ++ ((stripLeft t).reverse.takeWhile isBlank).reverse := by
    unfold strip stripRight
    rw [← List.reverse_append, List.takeWhile_append_dropWhile, List.reverse_reverse]
  refine ⟨t.takeWhile isBlank, ((stripLeft t).reverse.takeWhile isBlank).reverse, ?_, ?_, ?_⟩
  · rw [List.append_assoc, ← hright, ← hleft]
  · exact fun c hc => List.mem_takeWhile_imp hc
  · exact fun c hc => List.mem_takeWhile_imp (List.mem_reverse.mp hc)

theorem dropWhile_isBlank {front word : Text} (hfront : ∀ c ∈ front, isBlank c)
    (hword : ∀ c ∈ word, ¬isBlank c) (rest : Text) (hrest : word = [] → rest = []) :
    (front ++ (word ++ rest)).dropWhile isBlank = word ++ rest := by
  rw [List.dropWhile_append_of_pos hfront]
  cases word with
  | nil => rw [hrest rfl]; rfl
  | cons c word => exact List.dropWhile_cons_of_neg (hword c List.mem_cons_self)

theorem strip_of_around {front word back : Text} (hfront : ∀ c ∈ front, isBlank c)
    (hback : ∀ c ∈ back, isBlank c) (hword : ∀ c ∈ word, ¬isBlank c) (hne : word ≠ []) :
    strip (front ++ word ++ back) = word := by
  have hleft : stripLeft (front ++ word ++ back) = word ++ back := by
    rw [List.append_assoc]
    exact dropWhile_isBlank hfront hword back fun h => absurd h hne
  have hright : (word ++ back).reverse.dropWhile isBlank = word.reverse := by
    have hfront' : ∀ c ∈ back.reverse, isBlank c := fun c hc => hback c (List.mem_reverse.mp hc)
    have hword' : ∀ c ∈ word.reverse, ¬isBlank c := fun c hc => hword c (List.mem_reverse.mp hc)
    have h := dropWhile_isBlank hfront' hword' [] fun _ => rfl
    rwa [List.append_nil, ← List.reverse_append] at h
  rw [strip, hleft, stripRight, hright, List.reverse_reverse]

-- Blanks are no letters, and come before the capitals.
theorem lowerByte_of_isBlank {c : UInt8} (h : isBlank c) : lowerByte c = c := by
  have hbound : c.toNat ≤ 32 := by
    simp only [isBlank, Bool.or_eq_true, beq_iff_eq, Bool.and_eq_true, decide_eq_true_eq,
      UInt8.le_iff_toNat_le] at h
    rcases h with rfl | ⟨-, hle⟩
    · exact Nat.le_refl 32
    · exact Nat.le_trans hle (by decide)
  have hcapital : ¬ isUpper c := by
    simp only [isUpper, Bool.and_eq_true, decide_eq_true_eq, UInt8.le_iff_toNat_le]
    rintro ⟨hle, -⟩
    exact absurd (Nat.le_trans hle hbound) (by decide)
  rw [lowerByte, if_neg hcapital]

end Foreman.Text
