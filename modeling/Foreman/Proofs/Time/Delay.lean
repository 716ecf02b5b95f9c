import Foreman.Proofs.Number.Fixed
import Foreman.Proofs.Number.Numeral
import Foreman.Time.Delay
import Mathlib.Data.Rat.Floor
import Mathlib.Tactic.FieldSimp

namespace Foreman

namespace FixedPoint

variable {numeral : Text} {num places : Nat}

-- The number that a text stands for as it is, not rounded to a double: digits with at most one
-- point among them, after a minus sign or none.
def number? (text : Text) : Option ℚ :=
  let negative : Bool := text.head? = some ('-' : UInt8)
  let (whole, fraction, rest) := splitDigits (if negative then text.tail else text)
  if whole = [] ∧ fraction = [] ∨ rest ≠ [] then none
  else
    let magnitude : ℚ := Decimal.value (whole ++ fraction) / 10 ^ fraction.length
    some (if negative then -magnitude else magnitude)

-- What is taken for the sign is the sign, as no numeral starts with one.
theorem number?_of_numeral (negative : Bool) (h : Numeral numeral num places) :
    number? (sign negative ++ numeral) =
      some (if negative then -(num / 10 ^ places : ℚ) else num / 10 ^ places) := by
  have hhead := head?_numeral_ne h []
  have hends : EndsDigits [] := nofun
  obtain ⟨whole, fraction, hsplit, hne, rfl, rfl⟩ := splitDigits_of_numeral h hends
  rw [List.append_nil] at hhead hsplit
  have hsign : decide ((sign negative ++ numeral).head? = some ('-' : UInt8)) = negative := by
    cases negative with
    | true => rfl
    | false => exact decide_eq_false hhead
  have hbody : (if negative then (sign negative ++ numeral).tail else sign negative ++ numeral) =
      numeral := by
    cases negative <;> rfl
  have hdigit : ¬(whole = [] ∧ fraction = [] ∨ ([] : Text) ≠ []) := by tauto
  unfold number?
  simp only [hsign, hbody, hsplit, if_neg hdigit]

end FixedPoint

namespace Time

theorem fraction_eq (nanoseconds precision : Nat) :
    fraction nanoseconds precision =
      if precision = 0 then []
      else ('.' : UInt8) :: Decimal.fixed (nanoseconds / 10 ^ (9 - precision)) precision := rfl

theorem length_fraction (nanoseconds precision : Nat) :
    (fraction nanoseconds precision).length = if precision = 0 then 0 else precision + 1 := by
  rw [fraction_eq]
  split
  · rfl
  · rw [List.length_cons, Decimal.length_fixed]

end Time

namespace Delay

open FixedPoint (Numeral sign number?)

variable {precision : Nat}

def toRat (d : Delay) : ℚ := d.toInt / 10 ^ 9

def truncated (places : Nat) (x : ℚ) : ℚ :=
  (if x < 0 then ⌈x * 10 ^ places⌉ else ⌊x * 10 ^ places⌋) / 10 ^ places

theorem toInt_injective : Function.Injective toInt := by
  intro d e h
  cases d
  cases e
  exact congrArg Delay.mk (Int64.toInt_inj.mp h)

theorem toRat_injective : Function.Injective toRat := by
  intro d e h
  unfold toRat at h
  field_simp at h
  exact toInt_injective (Int.cast_injective h)

theorem natAbs_seconds (d : Delay) : d.seconds.natAbs = d.toInt.natAbs / 10 ^ 9 :=
  Int.natAbs_tdiv d.toInt Time.ticksPerSecond

theorem natAbs_nanoseconds (d : Delay) : d.nanoseconds.natAbs = d.toInt.natAbs % 10 ^ 9 :=
  Int.natAbs_tmod d.toInt Time.ticksPerSecond

theorem text_eq (d : Delay) (precision : Nat) :
    d.text precision = sign (decide (d.toInt < 0)) ++
      (Decimal.digits (d.toInt.natAbs / 10 ^ 9) ++
        Time.fraction (d.toInt.natAbs % 10 ^ 9) precision) := by
  rw [text, natAbs_seconds, natAbs_nanoseconds, List.append_assoc]
  by_cases h : d.toInt < 0
  · rw [if_pos h, decide_eq_true h]
    rfl
  · rw [if_neg h, decide_eq_false h]
    rfl

-- The whole seconds and the decimals behind the point are one number: the ticks without as many of
-- their nine last digits as are not asked for.
theorem numeral_text (n : Nat) (h : precision ≤ 9) :
    Numeral (Decimal.digits (n / 10 ^ 9) ++ Time.fraction (n % 10 ^ 9) precision)
      (n / 10 ^ (9 - precision)) precision := by
  have hscale : 10 ^ 9 = 10 ^ (9 - precision) * 10 ^ precision := (pow_sub_mul_pow 10 h).symm
  have hdigits : ∀ c ∈ Decimal.digits (n / 10 ^ 9), Text.isDigit c := fun c hc =>
    Decimal.isDigit_of_mem_digits hc
  rw [Time.fraction_eq]
  split
  case isTrue hzero =>
    subst hzero
    have hnumeral := Numeral.whole (Decimal.digits_ne_nil (n / 10 ^ 9)) hdigits
    rwa [Decimal.value_digits, ← List.append_nil (Decimal.digits _)] at hnumeral
  case isFalse =>
    have hfixed : ∀ c ∈ Decimal.fixed (n % 10 ^ 9 / 10 ^ (9 - precision)) precision,
        Text.isDigit c := fun c hc => Decimal.isDigit_of_mem_fixed hc
    have hnumeral := Numeral.point (.inl (Decimal.digits_ne_nil (n / 10 ^ 9))) hdigits hfixed
    have hvalue : n / 10 ^ 9 * 10 ^ precision + n % 10 ^ 9 / 10 ^ (9 - precision) % 10 ^ precision =
        n / 10 ^ (9 - precision) := by
      rw [hscale, Nat.mod_mul_right_div_self, Nat.mod_mod, ← Nat.div_div_eq_div_mul,
        Nat.div_add_mod']
    rwa [Decimal.value_append, Decimal.value_digits, Decimal.value_fixed, Decimal.length_fixed,
      hvalue] at hnumeral

-- Towards zero, and so to the number of ticks without its last digits on both sides of zero.
theorem truncated_toRat (d : Delay) (h : precision ≤ 9) :
    truncated precision d.toRat =
      if d.toInt < 0 then -((d.toInt.natAbs / 10 ^ (9 - precision) : Nat) / 10 ^ precision : ℚ)
      else (d.toInt.natAbs / 10 ^ (9 - precision) : Nat) / 10 ^ precision := by
  have hscale : (10 : ℚ) ^ 9 = 10 ^ (9 - precision) * 10 ^ precision :=
    (pow_sub_mul_pow 10 h).symm
  have hfloor (n : Nat) : ⌊(n : ℚ) / 10 ^ 9 * 10 ^ precision⌋ = (n / 10 ^ (9 - precision) : Nat) := by
    have hcast : (n : ℚ) / 10 ^ 9 * 10 ^ precision = n / (10 ^ (9 - precision) : Nat) := by
      rw [hscale]
      push_cast
      field_simp
    rw [hcast, Rat.floor_natCast_div_natCast]
    rfl
  have hsign : d.toRat < 0 ↔ d.toInt < 0 := by
    have hpos : (0 : ℚ) < 10 ^ 9 := by positivity
    rw [toRat, div_lt_iff₀ hpos, zero_mul, Int.cast_lt_zero]
  unfold truncated
  rw [if_congr hsign rfl rfl]
  split
  case isTrue hneg =>
    have habs : d.toRat = -((d.toInt.natAbs : ℚ) / 10 ^ 9) := by
      rw [toRat, Nat.cast_natAbs, abs_of_neg hneg, Int.cast_neg, neg_div, neg_neg]
    rw [habs, neg_mul, Int.ceil_neg, hfloor, Int.cast_neg, Int.cast_natCast, neg_div]
  case isFalse hpos =>
    have habs : d.toRat = (d.toInt.natAbs : ℚ) / 10 ^ 9 := by
      rw [toRat, Nat.cast_natAbs, abs_of_nonneg (not_lt.mp hpos)]
    rw [habs, hfloor, Int.cast_natCast]

theorem number?_text (d : Delay) (h : precision ≤ 9) :
    number? (d.text precision) = some (truncated precision d.toRat) := by
  rw [text_eq, FixedPoint.number?_of_numeral _ (numeral_text _ h), truncated_toRat d h]
  simp only [decide_eq_true_eq]

theorem truncated_all (d : Delay) : truncated 9 d.toRat = d.toRat := by
  have hcast : d.toRat * 10 ^ 9 = d.toInt := by
    unfold toRat
    field_simp
  rw [truncated, hcast, Int.ceil_intCast, Int.floor_intCast, ite_self]
  rfl

-- A minus sign in front of negative durations, the whole seconds, and then a point and the decimals
-- that are asked for, if there are any. The text stands for the duration in seconds, cut behind
-- these decimals. With nine of them nothing is cut, and no other duration has that text.
theorem texts_of_delays :
    (∀ (d : Delay) (precision : Nat), precision ≤ 9 →
      (∃ decimals, d.text precision = sign (decide (d.toInt < 0)) ++
          (Decimal.digits (d.toInt.natAbs / 10 ^ 9) ++
            if precision = 0 then [] else ('.' : UInt8) :: decimals) ∧
        decimals.length = precision ∧ ∀ c ∈ decimals, Text.isDigit c) ∧
      number? (d.text precision) = some (truncated precision d.toRat)) ∧
    (∀ d : Delay, number? (d.text 9) = some d.toRat) ∧
    Function.Injective fun d : Delay => d.text 9 := by
  have hread (d : Delay) : number? (d.text 9) = some d.toRat := by
    rw [number?_text d le_rfl, truncated_all]
  refine ⟨fun d precision h => ⟨?_, number?_text d h⟩, hread, fun d e h => ?_⟩
  · refine ⟨_, text_eq d precision, Decimal.length_fixed _ _, fun c hc => ?_⟩
    exact Decimal.isDigit_of_mem_fixed hc
  · apply toRat_injective
    exact Option.some.inj ((hread d).symm.trans ((congrArg number? h).trans (hread e)))

-- The least duration has no opposite.
theorem texts_of_least_delay :
    let least : Delay := ⟨Int64.minValue⟩
    3 ≤ 9 ∧ least.text 3 = "-9223372036.854" ∧
      number? "-9223372036.854" = some (truncated 3 least.toRat) ∧
      number? (least.text 9) = some (-9223372036854775808 / 10 ^ 9) := by
  intro least
  obtain ⟨htexts, hread, -⟩ := texts_of_delays
  have htext : least.text 3 = "-9223372036.854" := by decide +kernel
  have htruncated := (htexts least 3 (by decide)).2
  rw [htext] at htruncated
  exact ⟨by decide, htext, htruncated, hread least⟩

-- The sign stays where the decimals that are left are zeros.
example : (ofInt (-1)).text 3 = "-0.000" := by decide +kernel

end Delay

end Foreman
