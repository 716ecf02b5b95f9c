import Foreman.Number.Decimal

namespace Foreman

theorem toNat_digitByte {n : Nat} (h : n < 10) : (digitByte n).toNat = 48 + n := by
  have hbyte : 48 + n < 256 := by omega
  exact Nat.mod_eq_of_lt hbyte

theorem digitValue_digitByte {n : Nat} (h : n < 10) : digitValue (digitByte n) = n := by
  rw [digitValue, toNat_digitByte h, Nat.add_sub_cancel_left]

theorem isDigit_digitByte {n : Nat} (h : n < 10) : Text.isDigit (digitByte n) := by
  have hbyte := toNat_digitByte h
  have hzero : ('0' : UInt8).toNat = 48 := rfl
  have hnine : ('9' : UInt8).toNat = 57 := rfl
  rw [Text.isDigit, Bool.and_eq_true, decide_eq_true_iff, decide_eq_true_iff,
    UInt8.le_iff_toNat_le, UInt8.le_iff_toNat_le]
  omega

namespace Decimal

theorem takeWhile_digits {digits rest : Text} (hdigits : ∀ c ∈ digits, Text.isDigit c)
    (hrest : ∀ c, rest.head? = some c → ¬Text.isDigit c) :
    (digits ++ rest).takeWhile Text.isDigit = digits ∧
      (digits ++ rest).dropWhile Text.isDigit = rest := by
  rw [List.takeWhile_append_of_pos hdigits, List.dropWhile_append_of_pos hdigits]
  cases rest with
  | nil => exact ⟨List.append_nil digits, rfl⟩
  | cons c rest =>
    rw [List.takeWhile_cons_of_neg (hrest c rfl), List.dropWhile_cons_of_neg (hrest c rfl)]
    exact ⟨List.append_nil digits, rfl⟩

-- The induction is that of the digits: all but the last one are those of a tenth.
theorem isDigit_of_mem_digits {n : Nat} {c : UInt8} (h : c ∈ digits n) : Text.isDigit c := by
  induction n using digits.induct with
  | case1 n hn =>
    rw [digits, if_pos hn, List.mem_singleton] at h
    exact h ▸ isDigit_digitByte hn
  | case2 n hn ih =>
    rw [digits, if_neg hn] at h
    rcases List.mem_append.mp h with hfront | hlast
    · exact ih hfront
    · exact List.mem_singleton.mp hlast ▸ isDigit_digitByte (Nat.mod_lt n (by decide))

theorem digits_ne_nil (n : Nat) : digits n ≠ [] := by
  rw [digits]
  split
  · exact List.cons_ne_nil _ _
  · exact List.append_ne_nil_of_right_ne_nil _ (List.cons_ne_nil _ _)

theorem value_concat (t : Text) (c : UInt8) : value (t ++ [c]) = value t * 10 + digitValue c := by
  rw [value, List.foldl_append]
  rfl

theorem value_digits (n : Nat) : value (digits n) = n := by
  induction n using digits.induct with
  | case1 n hn =>
    rw [digits, if_pos hn]
    exact (Nat.zero_add _).trans (digitValue_digitByte hn)
  | case2 n hn ih =>
    rw [digits, if_neg hn, value_concat, ih, digitValue_digitByte (Nat.mod_lt n (by decide)),
      Nat.mul_comm, Nat.div_add_mod]

theorem text_eq (n : Int) :
    text n = (if n < 0 then [('-' : UInt8)] else []) ++ digits n.natAbs := by
  cases n with
  | ofNat n =>
    have hnot : ¬Int.ofNat n < 0 := Int.not_lt.mpr (Int.natCast_nonneg n)
    rw [if_neg hnot]
    rfl
  | negSucc n =>
    rw [if_pos (Int.negSucc_lt_zero n)]
    rfl

theorem digits_injective : Function.Injective digits :=
  Function.LeftInverse.injective value_digits

theorem minus_not_mem_digits (n : Nat) : ('-' : UInt8) ∉ digits n := fun h =>
  absurd (isDigit_of_mem_digits h) (by decide)

theorem mem_text {n : Int} {c : UInt8} (h : c ∈ text n) : Text.isDigit c ∨ c = '-' := by
  rw [text_eq, List.mem_append] at h
  rcases h with hsign | hdigits
  · split at hsign
    · exact .inr (List.mem_singleton.mp hsign)
    · cases hsign
  · exact .inl (isDigit_of_mem_digits hdigits)

theorem text_ne_nil (n : Int) : text n ≠ [] := by
  rw [text_eq]
  exact List.append_ne_nil_of_right_ne_nil _ (digits_ne_nil n.natAbs)

-- The sign is told by the first byte, and the rest by the value of the digits.
theorem text_injective : Function.Injective text := by
  intro m n h
  rw [text_eq, text_eq] at h
  by_cases hm : m < 0 <;> by_cases hn : n < 0
  · rw [if_pos hm, if_pos hn] at h
    have habs := digits_injective (List.append_cancel_left h)
    omega
  · rw [if_pos hm, if_neg hn, List.nil_append] at h
    exact absurd (h ▸ List.mem_cons_self) (minus_not_mem_digits n.natAbs)
  · rw [if_neg hm, if_pos hn, List.nil_append] at h
    exact absurd (h.symm ▸ List.mem_cons_self) (minus_not_mem_digits m.natAbs)
  · rw [if_neg hm, if_neg hn] at h
    have habs := digits_injective h
    omega

end Decimal

end Foreman
