import Foreman.Proofs.Number.Size

namespace Foreman

variable {t : IntType} {m : Int}

namespace IntType

theorem fits_zero (t : IntType) : t.Fits 0 := by
  unfold Fits min max
  have hhalf := Nat.pow_pos (a := 2) (n := t.bits - 1) (by decide)
  have hwhole := Nat.pow_pos (a := 2) (n := t.bits) (by decide)
  simp only [Nat.pow_eq]
  split <;> omega

theorem fits_of_mul {k : Int} (hk : 0 < k) (h : t.Fits (m * k)) : t.Fits m := by
  obtain ⟨hmin, hmax⟩ := t.fits_zero
  obtain ⟨hlow, hhigh⟩ := h
  by_cases hm : 0 ≤ m
  · exact ⟨hmin.trans hm, (le_mul_of_one_le_right hm hk).trans hhigh⟩
  · have hm' : m ≤ 0 := by omega
    exact ⟨hlow.trans (mul_le_of_one_le_right hm' hk), hm'.trans hmax⟩

end IntType

namespace SizeUnit

theorem letter?_injective : Function.Injective letter? := by
  intro unit unit' h
  cases unit <;> cases unit' <;> first | rfl | cases h

theorem letter?_ne {unit : SizeUnit} {c : UInt8} (h : c ∈ unit.letter?.toList) :
    ¬(Text.isDigit c ∨ c = '-') := by
  have hc := Option.mem_toList.mp h
  cases unit <;> cases hc <;> decide

end SizeUnit

namespace Size

theorem text_append_letter_inj {m m' : Int} {unit unit' : SizeUnit}
    (h : Decimal.text m ++ unit.letter?.toList = Decimal.text m' ++ unit'.letter?.toList) :
    m = m' ∧ unit = unit' := by
  have hnumber : ∀ (m : Int) (unit : SizeUnit),
      (Decimal.text m ++ unit.letter?.toList).filter (fun c => Text.isDigit c ∨ c = '-') =
        Decimal.text m := by
    intro m unit
    have htext : ∀ c ∈ Decimal.text m, decide (Text.isDigit c ∨ c = '-') = true := fun c hc =>
      decide_eq_true (Decimal.mem_text hc)
    have hletter : ∀ c ∈ unit.letter?.toList, ¬decide (Text.isDigit c ∨ c = '-') = true :=
      fun c hc => by simpa using SizeUnit.letter?_ne hc
    rw [List.filter_append, List.filter_eq_self.mpr htext, List.filter_eq_nil_iff.mpr hletter,
      List.append_nil]
  have hm : m = m' := by
    apply Decimal.text_injective
    rw [← hnumber m unit, h, hnumber]
  subst hm
  refine ⟨rfl, SizeUnit.letter?_injective ?_⟩
  have hletter := List.append_cancel_left h
  cases hunit : unit.letter? <;> cases hunit' : unit'.letter? <;> simp_all

-- A size is written as a whole number of a unit that is not smaller than its own, exactly, and of
-- the largest such unit. Zero keeps its unit. The number has room in every type that has room for
-- the size. Different sizes have different texts.
theorem sizes_written (unit : SizeUnit) :
    (∀ x : Int, ∃ (m : Int) (larger : SizeUnit),
      write unit x = Decimal.text m ++ larger.letter?.toList ∧ unit.rank ≤ larger.rank ∧
      m * 1024 ^ larger.rank = x * 1024 ^ unit.rank ∧
      (x = 0 ∧ larger = unit ∨ x ≠ 0 ∧ (¬1024 ∣ m ∨ larger = .exa)) ∧
      ∀ t : IntType, t.Fits x → t.Fits m) ∧
    Function.Injective (write unit) := by
  constructor
  · intro x
    obtain ⟨m, larger, htext, hle, hvalue, hlargest⟩ := write_spec unit x
    refine ⟨m, larger, htext, hle, ?_, hlargest, fun t hfits => ?_⟩
    · rw [hvalue, mul_assoc, ← pow_add, Nat.sub_add_cancel hle]
    · rw [hvalue] at hfits
      exact IntType.fits_of_mul (by positivity) hfits
  · intro x y h
    obtain ⟨m, larger, htext, -, rfl, -⟩ := write_spec unit x
    obtain ⟨m', larger', htext', -, rfl, -⟩ := write_spec unit y
    obtain ⟨rfl, rfl⟩ := text_append_letter_inj (htext.symm.trans (h.trans htext'))
    rfl

end Size

end Foreman
