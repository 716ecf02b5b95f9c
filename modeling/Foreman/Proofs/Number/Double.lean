import Foreman.Number.Double
import Mathlib.Algebra.Order.Field.Power
import Mathlib.Data.Rat.Floor
import Mathlib.Tactic.FieldSimp
import Mathlib.Tactic.Linarith
import Mathlib.Tactic.Positivity
import Mathlib.Tactic.Ring

namespace Foreman

namespace Magnitude

variable {num den : Nat}

theorem shifted_pos (hden : 0 < den) (num : Nat) (shift : Int) :
    0 < (shifted num den shift).2 := by
  unfold shifted
  split
  · exact hden
  · exact Nat.mul_pos hden (Nat.pow_pos Nat.two_pos)

theorem shifted_ratio (num den : Nat) (shift : Int) :
    ((shifted num den shift).1 : ℚ) / (shifted num den shift).2 = num / den * 2 ^ shift := by
  unfold shifted
  by_cases h : 0 ≤ shift
  · obtain ⟨k, rfl⟩ := Int.eq_ofNat_of_zero_le h
    simp only [if_pos h, Int.toNat_natCast, Nat.pow_eq, Nat.cast_mul, Nat.cast_pow, zpow_natCast]
    push_cast
    ring
  · obtain ⟨k, rfl⟩ : ∃ k : Nat, shift = -k := ⟨(-shift).toNat, by omega⟩
    simp only [if_neg h, neg_neg, Int.toNat_natCast, Nat.pow_eq, Nat.cast_mul, Nat.cast_pow,
      zpow_neg, zpow_natCast]
    push_cast
    rw [div_mul_eq_div_div, div_eq_mul_inv _ ((2 : ℚ) ^ k)]

theorem ratio_bracket (hnum : num ≠ 0) (hden : den ≠ 0) :
    (2 : ℚ) ^ ((num.log2 : Int) - den.log2 - 1) < num / den ∧
      (num / den : ℚ) < 2 ^ ((num.log2 : Int) - den.log2 + 1) := by
  have hnumLow : ((2 : ℚ) ^ num.log2) ≤ num := by exact_mod_cast Nat.log2_self_le hnum
  have hnumHigh : (num : ℚ) < 2 ^ (num.log2 + 1) := by exact_mod_cast Nat.lt_log2_self
  have hdenLow : ((2 : ℚ) ^ den.log2) ≤ den := by exact_mod_cast Nat.log2_self_le hden
  have hdenHigh : (den : ℚ) < 2 ^ (den.log2 + 1) := by exact_mod_cast Nat.lt_log2_self
  have hpos : (0 : ℚ) < den := by exact_mod_cast Nat.pos_of_ne_zero hden
  have hlow : (2 : ℚ) ^ ((num.log2 : Int) - den.log2 - 1) = 2 ^ num.log2 / 2 ^ (den.log2 + 1) := by
    rw [sub_sub, zpow_sub₀ two_ne_zero]
    exact_mod_cast rfl
  have hhigh : (2 : ℚ) ^ ((num.log2 : Int) - den.log2 + 1) =
      2 ^ (num.log2 + 1) / 2 ^ den.log2 := by
    rw [sub_add_eq_add_sub, zpow_sub₀ two_ne_zero]
    exact_mod_cast rfl
  constructor
  · rw [hlow, div_lt_div_iff₀ (by positivity) hpos]
    calc (2 : ℚ) ^ num.log2 * den < 2 ^ num.log2 * 2 ^ (den.log2 + 1) := by gcongr
      _ ≤ num * 2 ^ (den.log2 + 1) := by gcongr
  · rw [hhigh, div_lt_div_iff₀ hpos (by positivity)]
    calc (num : ℚ) * 2 ^ den.log2 < 2 ^ (num.log2 + 1) * 2 ^ den.log2 := by gcongr
      _ ≤ 2 ^ (num.log2 + 1) * den := by gcongr

-- The last place leaves less than 54 bits above it, and less than 53 only where it is the least one
-- that there is.
theorem lastPlace_spec (hnum : num ≠ 0) (hden : den ≠ 0) :
    -1074 ≤ lastPlace num den ∧ (num / den : ℚ) < 2 ^ (53 + lastPlace num den) ∧
      (lastPlace num den = -1074 ∨ (2 : ℚ) ^ (52 + lastPlace num den) ≤ num / den) := by
  obtain ⟨hlow, hhigh⟩ := ratio_bracket hnum hden
  let guess : Int := (num.log2 : Int) - den.log2 - 53
  let place : Int := if (shifted num den (-guess)).1 / (shifted num den (-guess)).2 < Nat.pow 2 53
    then guess else guess + 1
  have hplace : lastPlace num den = max place (-1074) := rfl
  -- before it is bounded, the last place leaves exactly 53 bits
  have hbits : (2 : ℚ) ^ (52 + place) ≤ num / den ∧ (num / den : ℚ) < 2 ^ (53 + place) := by
    have hsecond : 0 < (shifted num den (-guess)).2 :=
      shifted_pos (Nat.pos_of_ne_zero hden) num (-guess)
    have hcast : (0 : ℚ) < (shifted num den (-guess)).2 := by exact_mod_cast hsecond
    have hfew : (shifted num den (-guess)).1 / (shifted num den (-guess)).2 < Nat.pow 2 53 ↔
        (num / den : ℚ) < 2 ^ (53 + guess) := by
      rw [Nat.div_lt_iff_lt_mul hsecond, zpow_add₀ two_ne_zero, ← div_lt_iff₀ (by positivity),
        div_eq_mul_inv _ ((2 : ℚ) ^ guess), ← zpow_neg, ← shifted_ratio, div_lt_iff₀ hcast]
      exact_mod_cast Iff.rfl
    by_cases h : (shifted num den (-guess)).1 / (shifted num den (-guess)).2 < Nat.pow 2 53
    · have hguess : place = guess := if_pos h
      have hexponent : 52 + guess = (num.log2 : Int) - den.log2 - 1 := by omega
      rw [hguess]
      exact ⟨hexponent ▸ hlow.le, hfew.mp h⟩
    · have hguess : place = guess + 1 := if_neg h
      have hexponent : 53 + (guess + 1) = (num.log2 : Int) - den.log2 + 1 := by omega
      have hshift : 52 + (guess + 1) = 53 + guess := by omega
      rw [hguess, hexponent, hshift]
      exact ⟨not_lt.mp (mt hfew.mpr h), hhigh⟩
  rw [hplace]
  refine ⟨le_max_right _ _, hbits.2.trans_le ?_, ?_⟩
  · exact zpow_le_zpow_right₀ one_le_two (by omega)
  · rcases max_choice place (-1074) with h | h
    · right
      rw [h]
      exact hbits.1
    · exact .inl h

theorem roundQuotient_mul_self (k : Nat) (hden : 0 < den) : roundQuotient (k * den) den = k := by
  rw [roundQuotient, Nat.mul_mod_left, if_pos (by omega), Nat.mul_div_cancel k hden]

theorem le_roundQuotient (num den : Nat) : num / den ≤ roundQuotient num den := by
  unfold roundQuotient
  dsimp only
  split_ifs <;> omega

theorem roundQuotient_le (num den : Nat) : roundQuotient num den ≤ num / den + 1 := by
  unfold roundQuotient
  dsimp only
  split_ifs <;> omega

theorem shifted_lastPlace (num den : Nat) :
    ((shifted num den (-lastPlace num den)).1 : ℚ) / (shifted num den (-lastPlace num den)).2 *
      2 ^ lastPlace num den = num / den := by
  rw [shifted_ratio, mul_assoc, ← zpow_add₀ two_ne_zero, neg_add_cancel, zpow_zero, mul_one]

theorem lastPlace_le {m : Nat} {q : Int} (hnum : num ≠ 0) (hden : den ≠ 0) (hm : m < 2 ^ 53)
    (hlow : -1074 ≤ q) (h : (num / den : ℚ) = m * 2 ^ q) : lastPlace num den ≤ q := by
  obtain ⟨-, -, hleast | hbits⟩ := lastPlace_spec hnum hden
  · omega
  · have hcast : (m : ℚ) < 2 ^ (53 : Int) := by exact_mod_cast hm
    have hlt : (2 : ℚ) ^ (52 + lastPlace num den) < 2 ^ (53 + q) := by
      rw [zpow_add₀ two_ne_zero 53 q]
      exact (hbits.trans_eq h).trans_lt (by gcongr)
    have := (zpow_lt_zpow_iff_right₀ one_lt_two).mp hlt
    omega

theorem shifted_of_exact {m : Nat} {q : Int} (hnum : num ≠ 0) (hden : den ≠ 0) (hm : m < 2 ^ 53)
    (hlow : -1074 ≤ q) (h : (num / den : ℚ) = m * 2 ^ q) :
    ∃ k : Nat, q = lastPlace num den + k ∧ m * 2 ^ k < 2 ^ 53 ∧
      (shifted num den (-lastPlace num den)).1 =
        m * 2 ^ k * (shifted num den (-lastPlace num den)).2 := by
  obtain ⟨-, hbelow, -⟩ := lastPlace_spec hnum hden
  have hplace := lastPlace_le hnum hden hm hlow h
  have hratio := shifted_lastPlace num den
  have hsecond := shifted_pos (Nat.pos_of_ne_zero hden) num (-lastPlace num den)
  generalize lastPlace num den = place at *
  generalize shifted num den (-place) = quotient at *
  obtain ⟨k, rfl⟩ : ∃ k : Nat, q = place + k := ⟨(q - place).toNat, by omega⟩
  have hvalue : ((m * 2 ^ k : Nat) * 2 ^ place : ℚ) = m * 2 ^ (place + k) := by
    rw [zpow_add₀ two_ne_zero, zpow_natCast]
    push_cast
    ring
  refine ⟨k, rfl, ?_, ?_⟩
  · have hlt : ((m * 2 ^ k : Nat) : ℚ) * 2 ^ place < 2 ^ (53 : Int) * 2 ^ place := by
      rw [hvalue, ← zpow_add₀ two_ne_zero, ← h]
      exact hbelow
    exact_mod_cast lt_of_mul_lt_mul_right hlt (zpow_pos two_pos place).le
  · have hquotient : (quotient.1 / quotient.2 : ℚ) = (m * 2 ^ k : Nat) :=
      mul_right_cancel₀ (zpow_ne_zero place two_ne_zero) (hratio.trans (h.trans hvalue.symm))
    have hcast : (quotient.2 : ℚ) ≠ 0 := by exact_mod_cast hsecond.ne'
    exact_mod_cast (div_eq_iff hcast).mp hquotient

-- What a quotient is rounded to: the nearest whole number of its last place. A bit too many is
-- dropped again, being a zero, and the last place is the next one then.
theorem ofRatio_spec (hnum : num ≠ 0) {n d r : Nat} {place : Int}
    (hplace : lastPlace num den = place) (hshift : shifted num den (-place) = (n, d))
    (hround : roundQuotient n d = r) :
    ∃ m q, ofRatio num den = (if q ≤ 971 then .finite m q else .infinite) ∧
      (m * 2 ^ q : ℚ) = r * 2 ^ place ∧ (r ≤ 2 ^ 53 → m < 2 ^ 53) ∧ q ≤ place + 1 ∧
      (r ≠ 2 ^ 53 → q = place) := by
  unfold ofRatio
  rw [if_neg hnum]
  dsimp only
  rw [hplace, hshift]
  dsimp only
  rw [hround]
  by_cases hcarry : r = Nat.pow 2 53
  · rw [if_pos hcarry]
    refine ⟨_, _, rfl, ?_, fun _ => by norm_num, le_rfl, fun h => absurd hcarry h⟩
    rw [hcarry, zpow_add₀ two_ne_zero, zpow_one]
    norm_num
    ring
  · rw [if_neg hcarry]
    exact ⟨_, _, rfl, rfl, fun h => lt_of_le_of_ne h hcarry, by omega, fun _ => rfl⟩

theorem lt_of_ofRatio {m : Nat} {q : Int} (hden : den ≠ 0) (h : ofRatio num den = .finite m q) :
    m < 2 ^ 53 := by
  by_cases hnum : num = 0
  · rw [ofRatio, if_pos hnum] at h
    cases h
    norm_num
  obtain ⟨-, hbelow, -⟩ := lastPlace_spec hnum hden
  have hratio := shifted_lastPlace num den
  have hsecond := shifted_pos (Nat.pos_of_ne_zero hden) num (-lastPlace num den)
  obtain ⟨m', q', hrounded, -, hbits, -⟩ := ofRatio_spec hnum rfl Prod.mk.eta.symm rfl
  generalize lastPlace num den = place at *
  generalize shifted num den (-place) = quotient at *
  have hfew : quotient.1 / quotient.2 < 2 ^ 53 := by
    have hcast : (0 : ℚ) < quotient.2 := by exact_mod_cast hsecond
    rw [← hratio, zpow_add₀ two_ne_zero] at hbelow
    have hlt := lt_of_mul_lt_mul_right hbelow (zpow_pos two_pos place).le
    rw [div_lt_iff₀ hcast] at hlt
    rw [Nat.div_lt_iff_lt_mul hsecond]
    exact_mod_cast hlt
  have hround : roundQuotient quotient.1 quotient.2 ≤ 2 ^ 53 :=
    (roundQuotient_le quotient.1 quotient.2).trans hfew
  rw [hrounded] at h
  split at h
  · cases h
    exact hbits hround
  · cases h

theorem ofRatio_of_exact {m : Nat} {q : Int} (hden : den ≠ 0) (hm : m < 2 ^ 53) (hlow : -1074 ≤ q)
    (hhigh : q ≤ 971) (h : (num / den : ℚ) = m * 2 ^ q) :
    ∃ m' q', ofRatio num den = .finite m' q' ∧ (m' * 2 ^ q' : ℚ) = m * 2 ^ q := by
  by_cases hnum : num = 0
  · refine ⟨0, -1074, if_pos hnum, ?_⟩
    rw [← h, hnum, Nat.cast_zero, zero_div, zero_mul]
  obtain ⟨k, rfl, hfew, hwhole⟩ := shifted_of_exact hnum hden hm hlow h
  have hsecond := shifted_pos (Nat.pos_of_ne_zero hden) num (-lastPlace num den)
  have hround : roundQuotient (shifted num den (-lastPlace num den)).1
      (shifted num den (-lastPlace num den)).2 = m * 2 ^ k := by
    rw [hwhole, roundQuotient_mul_self _ hsecond]
  obtain ⟨m', q', hrounded, hvalue, -, -, hplace⟩ := ofRatio_spec hnum rfl Prod.mk.eta.symm hround
  have hq : q' = lastPlace num den := hplace hfew.ne
  refine ⟨m', q', by rw [hrounded, if_pos (by omega)], hvalue.trans ?_⟩
  rw [zpow_add₀ two_ne_zero, zpow_natCast]
  push_cast
  ring

-- The whole numbers that a double holds: at most 53 bits, and zeros behind them.
def Exact (n : Nat) : Prop :=
  ∃ m e : Nat, m < 2 ^ 53 ∧ n = m * 2 ^ e

theorem exact_of_lt {n : Nat} (h : n < 2 ^ 53) : Exact n :=
  ⟨n, 0, h, by rw [pow_zero, mul_one]⟩

theorem exact_pow (e : Nat) : Exact (2 ^ e) :=
  ⟨1, e, by norm_num, (one_mul _).symm⟩

theorem exact_mul_pow_iff {n : Nat} (e : Nat) : Exact (n * 2 ^ e) ↔ Exact n := by
  constructor
  · rintro ⟨m, k, hm, h⟩
    rcases le_total e k with hle | hle
    · obtain ⟨d, rfl⟩ := Nat.exists_eq_add_of_le hle
      refine ⟨m, d, hm, Nat.eq_of_mul_eq_mul_right (Nat.two_pow_pos e) ?_⟩
      rw [h]
      ring
    · obtain ⟨d, rfl⟩ := Nat.exists_eq_add_of_le hle
      have hvalue : n * 2 ^ d = m := by
        refine Nat.eq_of_mul_eq_mul_right (Nat.two_pow_pos k) ?_
        rw [← h]
        ring
      exact exact_of_lt ((Nat.le_mul_of_pos_right n (Nat.two_pow_pos d)).trans_lt (hvalue ▸ hm))
  · rintro ⟨m, k, hm, rfl⟩
    exact ⟨m, k + e, hm, by ring⟩

-- A number of at most 128 bits has no more zeros behind its bits, if it is not zero altogether.
theorem Exact.bounded {n : Nat} (h : Exact n) (hn : n < 2 ^ 128) :
    ∃ m e : Nat, m < 2 ^ 53 ∧ e ≤ 128 ∧ n = m * 2 ^ e := by
  obtain ⟨m, e, hm, rfl⟩ := h
  by_cases hzero : m = 0
  · exact ⟨0, 0, by norm_num, by omega, by rw [hzero, zero_mul, zero_mul]⟩
  · have hle : 2 ^ e ≤ m * 2 ^ e := Nat.le_mul_of_pos_left _ (Nat.pos_of_ne_zero hzero)
    have he := (Nat.pow_lt_pow_iff_right Nat.one_lt_two).mp (hle.trans_lt hn)
    exact ⟨m, e, hm, he.le, rfl⟩

theorem ofRatio_one_of_exact {n : Nat} (hn : n < 2 ^ 128) (h : Exact n) :
    ∃ m q, ofRatio n 1 = .finite m q ∧ (m * 2 ^ q : ℚ) = n := by
  obtain ⟨m, e, hm, he, hvalue⟩ := h.bounded hn
  have hratio : (n / (1 : Nat) : ℚ) = m * 2 ^ (e : Int) := by
    rw [Nat.cast_one, div_one, hvalue, zpow_natCast]
    push_cast
    rfl
  obtain ⟨m', q', hfinite, hsame⟩ :=
    ofRatio_of_exact one_ne_zero hm (by omega) (by omega) hratio
  refine ⟨m', q', hfinite, hsame.trans ?_⟩
  rw [← hratio, Nat.cast_one, div_one]

theorem lastPlace_of_large {n : Nat} (hn : n < 2 ^ 128) (h : 2 ^ 53 ≤ n) :
    ∃ k : Nat, lastPlace n 1 = k ∧ 0 < k ∧ k < 971 ∧ 2 ^ (52 + k) ≤ n ∧ n < 2 ^ (53 + k) := by
  have hnum : n ≠ 0 := by omega
  obtain ⟨-, hbelow, hbits⟩ := lastPlace_spec hnum one_ne_zero
  rw [Nat.cast_one, div_one] at hbelow hbits
  have hpositive : 0 < lastPlace n 1 := by
    have hle : (2 : ℚ) ^ (53 : Int) ≤ n := by exact_mod_cast h
    have := (zpow_lt_zpow_iff_right₀ one_lt_two).mp (hle.trans_lt hbelow)
    omega
  obtain ⟨k, hk⟩ : ∃ k : Nat, lastPlace n 1 = k := ⟨(lastPlace n 1).toNat, by omega⟩
  rw [hk] at hbelow hbits hpositive
  have hhigh : n < 2 ^ (53 + k) := by exact_mod_cast hbelow
  have hlow : 2 ^ (52 + k) ≤ n := by
    rcases hbits with hleast | hle
    · omega
    · exact_mod_cast hle
  have hfinite := (Nat.pow_lt_pow_iff_right Nat.one_lt_two).mp (hlow.trans_lt hn)
  exact ⟨k, hk, by omega, by omega, hlow, hhigh⟩

theorem roundQuotient_mul_le {n d : Nat} (h : d ≤ n) : roundQuotient n d * d ≤ 2 * n := by
  have hmul := Nat.mul_le_mul_right d (roundQuotient_le n d)
  have hfloor := Nat.div_mul_le_self n d
  rw [add_mul, one_mul] at hmul
  omega

theorem ofRatio_one_of_large {n : Nat} (hn : n < 2 ^ 128) (h : 2 ^ 53 ≤ n) :
    ∃ m q y, ofRatio n 1 = .finite m q ∧ m ≠ 0 ∧ (m * 2 ^ q : ℚ) = (y : Nat) ∧ Exact y ∧
      y ≤ 2 * n := by
  obtain ⟨k, hk, hpositive, hfinite, hlow, hhigh⟩ := lastPlace_of_large hn h
  have hnum : n ≠ 0 := by omega
  have hshift : shifted n 1 (-(k : Int)) = (n, 2 ^ k) := by
    rw [shifted, if_neg (by omega), neg_neg, Int.toNat_natCast, one_mul]
    rfl
  obtain ⟨m, q, hrounded, hvalue, -, hq, -⟩ := ofRatio_spec hnum hk hshift rfl
  have hquotient : 2 ^ 52 ≤ n / 2 ^ k ∧ n / 2 ^ k < 2 ^ 53 := by
    have hpower : 0 < 2 ^ k := Nat.two_pow_pos k
    rw [Nat.le_div_iff_mul_le hpower, Nat.div_lt_iff_lt_mul hpower, ← pow_add, ← pow_add]
    exact ⟨hlow, hhigh⟩
  have hround := le_roundQuotient n (2 ^ k)
  have hround' := roundQuotient_le n (2 ^ k)
  have hle : roundQuotient n (2 ^ k) * 2 ^ k ≤ 2 * n :=
    roundQuotient_mul_le ((Nat.pow_le_pow_right Nat.two_pos (by omega)).trans hlow)
  generalize roundQuotient n (2 ^ k) = r at *
  have hwhole : (m * 2 ^ q : ℚ) = (r * 2 ^ k : Nat) := by
    rw [hvalue, zpow_natCast]
    push_cast
    rfl
  have hexact : Exact r := by
    rcases (hround'.trans hquotient.2).lt_or_eq with hlt | rfl
    · exact exact_of_lt hlt
    · exact exact_pow 53
  refine ⟨m, q, r * 2 ^ k, by rw [hrounded, if_pos (by omega)], ?_, hwhole,
    (exact_mul_pow_iff k).mpr hexact, hle⟩
  rintro rfl
  rw [Nat.cast_zero, zero_mul] at hwhole
  have hzero : r * 2 ^ k = 0 := by exact_mod_cast hwhole.symm
  rcases Nat.mul_eq_zero.mp hzero with hr | hpower
  · omega
  · exact absurd hpower (Nat.two_pow_pos k).ne'

theorem ofRatio_one {n : Nat} (hn : n < 2 ^ 128) :
    ∃ m q y, ofRatio n 1 = .finite m q ∧ (m * 2 ^ q : ℚ) = (y : Nat) ∧ Exact y ∧ y ≤ 2 * n ∧
      (Exact n → y = n) ∧ (n ≠ 0 → m ≠ 0) := by
  by_cases h : Exact n
  · obtain ⟨m, q, hfinite, hvalue⟩ := ofRatio_one_of_exact hn h
    refine ⟨m, q, n, hfinite, hvalue, h, by omega, fun _ => rfl, ?_⟩
    rintro hne rfl
    rw [Nat.cast_zero, zero_mul] at hvalue
    exact hne (by exact_mod_cast hvalue.symm)
  · obtain ⟨m, q, y, hfinite, hm, hvalue, hexact, hle⟩ :=
      ofRatio_one_of_large hn (not_lt.mp (mt exact_of_lt h))
    exact ⟨m, q, y, hfinite, hvalue, hexact, hle, fun hn => absurd hn h, fun _ => hm⟩

end Magnitude

namespace Double

open Magnitude

def value? : Double → Option ℚ
  | .number negative (.finite m q) => some (if negative then -(m * 2 ^ q) else m * 2 ^ q)
  | _ => none

variable {x : Double} {v : ℚ}

theorem exists_of_value? (h : x.value? = some v) :
    ∃ negative m q, x = .number negative (.finite m q) ∧
      v = if negative then -(m * 2 ^ q : ℚ) else m * 2 ^ q := by
  unfold value? at h
  split at h
  case h_1 negative m q => exact ⟨negative, m, q, rfl, (Option.some.inj h).symm⟩
  case h_2 => cases h

theorem abs_signed (negative : Bool) (m : Nat) (q : Int) :
    |(if negative then -(m * 2 ^ q) else m * 2 ^ q : ℚ)| = m * 2 ^ q := by
  rw [apply_ite abs, abs_neg, ite_self, abs_of_nonneg (by positivity)]

theorem exists_of_value?_scaleTwo {e : Int} (h : (x.scaleTwo e).value? = some v) :
    ∃ negative m q, x = .number negative (.finite m q) := by
  cases x with
  | nan => cases h
  | number negative magnitude =>
    cases magnitude with
    | infinite => cases h
    | finite m q => exact ⟨negative, m, q, rfl⟩

theorem exists_value?_of_whole {roundUp : Bool} {n : Int}
    (h : (if roundUp then x.ceil? else x.floor?) = some n) : ∃ v, x.value? = some v := by
  cases x with
  | nan => cases roundUp <;> cases h
  | number negative magnitude =>
    cases magnitude with
    | infinite => cases roundUp <;> cases h
    | finite m q => exact ⟨_, rfl⟩

theorem signed_ratio (negative : Bool) (m : Nat) (q : Int) :
    (((if negative then -((shifted m 1 q).1 : Int) else (shifted m 1 q).1 : Int) : ℚ)) /
      (shifted m 1 q).2 = if negative then -(m * 2 ^ q : ℚ) else m * 2 ^ q := by
  have hratio := shifted_ratio m 1 q
  rw [Nat.cast_one, div_one] at hratio
  cases negative with
  | false =>
    rw [if_neg Bool.false_ne_true, if_neg Bool.false_ne_true, Int.cast_natCast]
    exact hratio
  | true =>
    rw [if_pos rfl, if_pos rfl, ← hratio]
    push_cast
    exact neg_div _ _

theorem below_iff (h : x.value? = some v) (bound : Int) : x.below bound ↔ v < bound := by
  obtain ⟨negative, m, q, rfl, rfl⟩ := exists_of_value? h
  have hpos : (0 : ℚ) < (shifted m 1 q).2 := by exact_mod_cast shifted_pos one_pos m q
  rw [below, decide_eq_true_iff, ← signed_ratio, div_lt_iff₀ hpos]
  exact_mod_cast Iff.rfl

theorem above_iff (h : x.value? = some v) (bound : Int) : x.above bound ↔ bound < v := by
  obtain ⟨negative, m, q, rfl, rfl⟩ := exists_of_value? h
  have hpos : (0 : ℚ) < (shifted m 1 q).2 := by exact_mod_cast shifted_pos one_pos m q
  rw [above, decide_eq_true_iff, ← signed_ratio, lt_div_iff₀ hpos]
  exact_mod_cast Iff.rfl

theorem neg_div_roundUp (n : Nat) {d : Nat} (hd : 0 < d) :
    -(((n + d - 1) / d : Nat) : Int) = -n / d := by
  have hdivision := Nat.div_add_mod (n + d - 1) d
  have hrest := Nat.mod_lt (n + d - 1) hd
  have hpos : (0 : Int) < d := by omega
  refine ((Int.ediv_emod_unique (r := d - 1 - ((n + d - 1) % d : Nat)) hpos).mpr ?_).1.symm
  generalize (n + d - 1) / d = quotient at *
  generalize (n + d - 1) % d = rest at *
  rw [mul_neg, ← Nat.cast_mul]
  omega

theorem floor?_eq (h : x.value? = some v) : x.floor? = some ⌊v⌋ := by
  obtain ⟨negative, m, q, rfl, rfl⟩ := exists_of_value? h
  rw [← signed_ratio, Rat.floor_intCast_div_natCast]
  cases negative with
  | false => rfl
  | true => exact congrArg some (neg_div_roundUp _ (shifted_pos one_pos m q))

theorem ceil?_eq (h : x.value? = some v) : x.ceil? = some ⌈v⌉ := by
  obtain ⟨negative, m, q, rfl, rfl⟩ := exists_of_value? h
  have hopposite : (Double.number (!negative) (.finite m q)).value? =
      some (-(if negative then -(m * 2 ^ q : ℚ) else m * 2 ^ q)) := by
    cases negative with
    | false => rfl
    | true => exact congrArg some (neg_neg _).symm
  have hfloor := floor?_eq hopposite
  rw [Int.floor_neg] at hfloor
  cases negative with
  | false => exact congrArg some (neg_injective (Option.some.inj hfloor))
  | true => exact congrArg some (neg_eq_iff_eq_neg.mpr (Option.some.inj hfloor))

theorem ofRatio_of_scaleTwo (m : Nat) (q e : Int) :
    ∃ num den, (Magnitude.finite m q).scaleTwo e = ofRatio num den ∧ den ≠ 0 ∧
      (num / den : ℚ) = m * 2 ^ q * 2 ^ e := by
  let factor := shifted 1 1 e
  let scaled := shifted (m * factor.1) factor.2 q
  have hfactor : 0 < factor.2 := shifted_pos one_pos 1 e
  refine ⟨scaled.1, scaled.2, rfl, (shifted_pos hfactor _ q).ne', ?_⟩
  have hratio : (factor.1 / factor.2 : ℚ) = 2 ^ e := by
    rw [shifted_ratio, Nat.cast_one, div_one, one_mul]
  rw [shifted_ratio, Nat.cast_mul, mul_div_assoc, hratio]
  ring

-- Doubles of more than 53 bits are whole, as rounded ones are.
theorem exists_intCast_of_large {e : Int} (h : (x.scaleTwo e).value? = some v)
    (hlarge : 2 ^ 53 ≤ |v|) : ∃ y : Int, v = y := by
  obtain ⟨negative, m₀, q₀, rfl⟩ := exists_of_value?_scaleTwo h
  obtain ⟨num, den, hround, hden, -⟩ := ofRatio_of_scaleTwo m₀ q₀ e
  obtain ⟨negative', m, q, hscaled, hv⟩ := exists_of_value? h
  rw [Double.scaleTwo, hround, Double.number.injEq] at hscaled
  have hm : (m : ℚ) < 2 ^ (53 : Int) := by exact_mod_cast lt_of_ofRatio hden hscaled.2
  have habs : |v| = m * 2 ^ q := by rw [hv, abs_signed]
  obtain ⟨k, rfl⟩ : ∃ k : Nat, q = k := by
    refine Int.eq_ofNat_of_zero_le (not_lt.mp fun hq => ?_)
    have hsmall : (2 : ℚ) ^ q ≤ 1 := zpow_le_one_of_nonpos₀ one_le_two hq.le
    rw [habs] at hlarge
    have hle : (m : ℚ) * 2 ^ q ≤ m := mul_le_of_le_one_right (Nat.cast_nonneg m) hsmall
    exact absurd (hlarge.trans hle) (not_le.mpr (by exact_mod_cast hm))
  refine ⟨if negative' then -(m * 2 ^ k) else m * 2 ^ k, ?_⟩
  rw [hv]
  split <;> push_cast <;> rw [zpow_natCast]

theorem value?_scaleTwo {m : Nat} {q e : Int} (h : x.value? = some v) (hm : m < 2 ^ 53)
    (hlow : -1074 ≤ q) (hhigh : q ≤ 971) (hscaled : |v| * 2 ^ e = m * 2 ^ q) :
    (x.scaleTwo e).value? = some (v * 2 ^ e) := by
  obtain ⟨negative, m₀, q₀, rfl, hv⟩ := exists_of_value? h
  obtain ⟨num, den, hround, hden, hratio⟩ := ofRatio_of_scaleTwo m₀ q₀ e
  have hmagnitude : |v| = m₀ * 2 ^ q₀ := by rw [hv, abs_signed]
  rw [hmagnitude, ← hratio] at hscaled
  obtain ⟨m', q', hfinite, hsame⟩ := ofRatio_of_exact hden hm hlow hhigh hscaled
  have hvalue : (m' * 2 ^ q' : ℚ) = m₀ * 2 ^ q₀ * 2 ^ e := by rw [hsame, ← hscaled, hratio]
  have hexact : (Double.number negative (.finite m₀ q₀)).scaleTwo e =
      .number negative (.finite m' q') := by
    rw [Double.scaleTwo, hround, hfinite]
  rw [hexact, value?, hvalue, hv, ite_mul, neg_mul]

theorem value?_scaleTwo_of_exact {y : Int} {s : Nat} (h : x.value? = some (y : ℚ))
    (hexact : Exact y.natAbs) (hy : y.natAbs < 2 ^ 128) (hs : s ≤ 128) :
    (x.scaleTwo s).value? = some ((y * 2 ^ s : Int) : ℚ) := by
  obtain ⟨m, e, hm, he, hvalue⟩ := hexact.bounded hy
  have hscaled : |(y : ℚ)| * 2 ^ (s : Int) = m * 2 ^ ((e + s : Nat) : Int) := by
    rw [← Int.cast_abs, Int.abs_eq_natAbs, hvalue, zpow_natCast, zpow_natCast, pow_add]
    push_cast
    ring
  rw [value?_scaleTwo h hm (by omega) (by omega) hscaled, zpow_natCast]
  push_cast
  rfl

end Double

end Foreman
