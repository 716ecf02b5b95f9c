import Foreman.Proofs.Number.Decimal
import Foreman.Text.Layout
import Mathlib.Data.List.Induction
import Mathlib.Tactic.Ring

namespace Foreman

theorem Text.append_lt_append {a b : Text} (h : a < b) (hlength : a.length = b.length)
    (s t : Text) : a ++ s < b ++ t := by
  induction a generalizing b with
  | nil =>
    obtain rfl := List.eq_nil_of_length_eq_zero hlength.symm
    exact absurd h (List.lt_irrefl [])
  | cons c a ih =>
    obtain ⟨c', b, rfl⟩ := List.exists_cons_of_length_eq_add_one hlength.symm
    rw [List.cons_append, List.cons_append, List.cons_lt_cons_iff]
    rcases List.cons_lt_cons_iff.mp h with hlt | ⟨heq, hlt⟩
    · exact .inl hlt
    · exact .inr ⟨heq, ih hlt (Nat.add_right_cancel hlength)⟩

theorem Text.append_lt_append_of_lex {a b s t : Text} (h : a < b ∨ a = b ∧ s < t)
    (hlength : a.length = b.length) : a ++ s < b ++ t := by
  rcases h with hlt | ⟨rfl, hlt⟩
  · exact append_lt_append hlt hlength s t
  · exact List.append_left_lt hlt

namespace Decimal

variable {m n width : Nat} {c : UInt8}

theorem value_append (s t : Text) : value (s ++ t) = value s * 10 ^ t.length + value t := by
  induction t using List.reverseRecOn with
  | nil =>
    rw [List.append_nil, List.length_nil, pow_zero, mul_one]
    rfl
  | append_singleton t c ih =>
    rw [← List.append_assoc, value_concat, value_concat, ih, List.length_append,
      List.length_singleton, pow_succ]
    ring

theorem length_fixed (n width : Nat) : (fixed n width).length = width := by
  induction width generalizing n with
  | zero => rfl
  | succ width ih => rw [fixed, List.length_append, ih, List.length_singleton]

theorem isDigit_of_mem_fixed (h : c ∈ fixed n width) : Text.isDigit c := by
  induction width generalizing n with
  | zero => cases h
  | succ width ih =>
    rcases List.mem_append.mp h with hfront | hlast
    · exact ih hfront
    · exact List.mem_singleton.mp hlast ▸ isDigit_digitByte (Nat.mod_lt n (by decide))

theorem value_fixed (n width : Nat) : value (fixed n width) = n % 10 ^ width := by
  induction width generalizing n with
  | zero =>
    rw [pow_zero, Nat.mod_one]
    rfl
  | succ width ih =>
    rw [fixed, value_concat, ih, digitValue_digitByte (Nat.mod_lt n (by decide)), pow_succ',
      Nat.mod_mul, Nat.add_comm, Nat.mul_comm]

-- The induction is on the width. Either the numbers differ without their last digits, or these do.
theorem fixed_lt_fixed (h : m < n) (hn : n < 10 ^ width) : fixed m width < fixed n width := by
  induction width generalizing m n with
  | zero => omega
  | succ width ih =>
    rw [pow_succ] at hn
    rw [fixed, fixed]
    rcases (Nat.div_le_div_right h.le : m / 10 ≤ n / 10).lt_or_eq with hlt | heq
    · exact Text.append_lt_append (ih hlt (by omega)) (by rw [length_fixed, length_fixed]) _ _
    · have hlast : digitByte (m % 10) < digitByte (n % 10) := by
        rw [UInt8.lt_iff_toNat_lt, toNat_digitByte (by omega), toNat_digitByte (by omega)]
        omega
      rw [heq]
      exact List.append_left_lt (List.cons_lt_cons_iff.mpr (.inl hlast))

theorem fixed_append_lt {s t : Text} (h : m < n ∨ m = n ∧ s < t) (hn : n < 10 ^ width) :
    fixed m width ++ s < fixed n width ++ t := by
  have hlength : (fixed m width).length = (fixed n width).length := by
    rw [length_fixed, length_fixed]
  refine Text.append_lt_append_of_lex (h.imp (fixed_lt_fixed · hn) ?_) hlength
  rintro ⟨rfl, hlt⟩
  exact ⟨rfl, hlt⟩

theorem fixed_zero (width : Nat) : fixed 0 width = List.replicate width ('0' : UInt8) := by
  induction width with
  | zero => rfl
  | succ width ih =>
    rw [fixed, Nat.zero_div, ih, List.replicate_succ']
    rfl

-- The digits of a number with zeros in front of them, if there is room for all of its digits. The
-- induction is that of the digits.
theorem fixed_eq (hn : n < 10 ^ width) (hwidth : 0 < width) :
    (digits n).length ≤ width ∧
      fixed n width = List.replicate (width - (digits n).length) ('0' : UInt8) ++ digits n := by
  obtain ⟨width, rfl⟩ := Nat.exists_eq_add_one.mpr hwidth
  induction n using digits.induct generalizing width with
  | case1 n h =>
    rw [digits, if_pos h, fixed, Nat.div_eq_of_lt h, fixed_zero, Nat.mod_eq_of_lt h]
    exact ⟨Nat.le_add_left 1 width, rfl⟩
  | case2 n h ih =>
    rw [pow_succ] at hn
    have hwidth : 0 < width := by
      rcases width with - | width
      · omega
      · exact Nat.succ_pos width
    obtain ⟨width, rfl⟩ := Nat.exists_eq_add_one.mpr hwidth
    obtain ⟨hlength, htext⟩ := ih width (by omega) hwidth
    rw [digits, if_neg h, fixed, htext, List.length_append, List.length_singleton,
      Nat.add_sub_add_right, List.append_assoc]
    exact ⟨Nat.succ_le_succ hlength, rfl⟩

theorem length_digits_le (hn : n < 10 ^ width) (hwidth : 0 < width) :
    (digits n).length ≤ width :=
  (fixed_eq hn hwidth).1

theorem widen_digits (hn : n < 10 ^ width) (hwidth : 0 < width) :
    Text.widen (digits n) width true ('0' : UInt8) = fixed n width :=
  (fixed_eq hn hwidth).2.symm

end Decimal

end Foreman
