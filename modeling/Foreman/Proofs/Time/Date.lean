import Foreman.Proofs.Time.Calendar
import Foreman.Proofs.Time.Delay

namespace Foreman.Date

open Calendar (ofDays)

variable {m n precision : Nat}

theorem div_lt_or_mod_lt (h : m < n) (k : Nat) :
    m / k < n / k ∨ m / k = n / k ∧ m % k < n % k := by
  rcases (Nat.div_le_div_right h.le : m / k ≤ n / k).lt_or_eq with hlt | heq
  · exact .inl hlt
  · have hm := Nat.div_add_mod m k
    have hn := Nat.div_add_mod n k
    rw [heq] at hm
    exact .inr ⟨heq, by omega⟩

def joined (mark : Text) (width a b c : Nat) : Text :=
  Decimal.fixed a width ++ mark ++ Decimal.fixed b 2 ++ mark ++ Decimal.fixed c 2

theorem length_joined (mark : Text) (width a b c : Nat) :
    (joined mark width a b c).length = width + 4 + 2 * mark.length := by
  simp only [joined, List.length_append, Decimal.length_fixed]
  omega

theorem joined_lt_joined (mark : Text) {width a b c a' b' c' : Nat}
    (h : a < a' ∨ a = a' ∧ (b < b' ∨ b = b' ∧ c < c'))
    (ha : a' < 10 ^ width) (hb : b' < 10 ^ 2) (hc : c' < 10 ^ 2) :
    joined mark width a b c < joined mark width a' b' c' := by
  simp only [joined, List.append_assoc]
  refine Decimal.fixed_append_lt (h.imp_right fun ⟨ha, h⟩ => ⟨ha, List.append_left_lt ?_⟩) ha
  refine Decimal.fixed_append_lt (h.imp_right fun ⟨hb, h⟩ => ⟨hb, List.append_left_lt ?_⟩) hb
  exact Decimal.fixed_lt_fixed h hc

-- The last day of the last year of four digits, far behind the last tick.
def lastDay : Nat := 2932896

theorem year_lt (h : n ≤ lastDay) : (ofDays n).year < 10 ^ 4 := by
  have hlast : ofDays lastDay = ⟨9999, 12, 31⟩ := by decide +kernel
  calc (ofDays n).year ≤ (ofDays lastDay).year := Calendar.year_ofDays_mono h
    _ < 10 ^ 4 := by
      rw [hlast]
      decide

theorem dayText_eq (h : n ≤ lastDay) :
    dayText n = joined "-" 4 (ofDays n).year (ofDays n).month (ofDays n).day := by
  rw [dayText, Decimal.widen_digits (year_lt h) (by decide)]
  rfl

theorem dayText_lt_dayText (h : m < n) (hn : n ≤ lastDay) : dayText m < dayText n := by
  have hkey := Calendar.Day.key_lt_key_iff.mp (Calendar.key_ofDays_strictMono h)
  obtain ⟨hmonth, hday⟩ := Calendar.ofDays_le n
  rw [dayText_eq (h.le.trans hn), dayText_eq hn]
  exact joined_lt_joined "-" hkey (year_lt hn) (by omega) (by omega)

theorem clockText_lt_clockText (h : m < n) (hn : n < 86400) : clockText m < clockText n :=
  joined_lt_joined ":" (by omega) (by omega) (by omega) (by omega)

def secondText (seconds : Nat) : Text :=
  dayText (seconds / 86400) ++ " " ++ clockText (seconds % 86400)

theorem length_dayText (h : n ≤ lastDay) : (dayText n).length = 10 := by
  rw [dayText_eq h, length_joined]
  rfl

theorem length_clockText (n : Nat) : (clockText n).length = 8 :=
  length_joined ":" 2 _ _ _

theorem length_secondText (h : n / 86400 ≤ lastDay) : (secondText n).length = 19 := by
  rw [secondText, List.length_append, List.length_append, length_dayText h, length_clockText]
  rfl

theorem secondText_lt_secondText (h : m < n) (hn : n / 86400 ≤ lastDay) :
    secondText m < secondText n := by
  have hm : m / 86400 ≤ lastDay := (Nat.div_le_div_right h.le).trans hn
  have hlength : (dayText (m / 86400)).length = (dayText (n / 86400)).length := by
    rw [length_dayText hm, length_dayText hn]
  unfold secondText
  rw [List.append_assoc, List.append_assoc]
  refine Text.append_lt_append_of_lex ((div_lt_or_mod_lt h 86400).imp ?_ ?_) hlength
  · exact fun hday => dayText_lt_dayText hday hn
  · rintro ⟨hday, hclock⟩
    exact ⟨congrArg dayText hday,
      List.append_left_lt (clockText_lt_clockText hclock (Nat.mod_lt n (by decide)))⟩

-- The text of a time that is counted in units of the last decimal of the text.
def stamp (precision units : Nat) : Text :=
  secondText (units / 10 ^ precision) ++
    if precision = 0 then []
    else ('.' : UInt8) :: Decimal.fixed (units % 10 ^ precision) precision

theorem stamp_lt_stamp (h : m < n) (hn : n / 10 ^ precision / 86400 ≤ lastDay) :
    stamp precision m < stamp precision n := by
  have hm : m / 10 ^ precision / 86400 ≤ lastDay :=
    (Nat.div_le_div_right (Nat.div_le_div_right h.le)).trans hn
  have hlength : (secondText (m / 10 ^ precision)).length =
      (secondText (n / 10 ^ precision)).length := by
    rw [length_secondText hm, length_secondText hn]
  refine Text.append_lt_append_of_lex ((div_lt_or_mod_lt h (10 ^ precision)).imp ?_ ?_) hlength
  · exact fun hsecond => secondText_lt_secondText hsecond hn
  · rintro ⟨hsecond, hrest⟩
    -- Without decimals nothing is left to differ in.
    have hprecision : precision ≠ 0 := by
      rintro rfl
      rw [pow_zero, Nat.mod_one, Nat.mod_one] at hrest
      exact hrest.false
    have hfixed := Decimal.fixed_lt_fixed hrest (Nat.mod_lt n (by positivity))
    rw [if_neg hprecision, if_neg hprecision]
    exact ⟨congrArg secondText hsecond, List.cons_lt_cons_iff.mpr (.inr ⟨rfl, hfixed⟩)⟩

variable (d : Date)

theorem text_eq (precision : Nat) (hd : d.ticks ≠ 0) :
    d.text precision false = secondText d.seconds ++ Time.fraction d.nanoseconds precision := by
  rw [text, if_neg hd]
  rfl

theorem day_le_lastDay : d.seconds / 86400 ≤ lastDay := by
  have hlt : d.toNat < 2 ^ 64 := d.ticks.toNat_lt
  unfold seconds Time.ticksPerSecond lastDay
  omega

theorem length_text (precision : Nat) (hd : d.ticks ≠ 0) :
    (d.text precision false).length = 19 + if precision = 0 then 0 else precision + 1 := by
  rw [text_eq d precision hd, List.length_append, length_secondText (day_le_lastDay d),
    Time.length_fraction]

theorem seconds_eq (h : precision ≤ 9) :
    d.seconds = d.toNat / 10 ^ (9 - precision) / 10 ^ precision := by
  rw [Nat.div_div_eq_div_mul, pow_sub_mul_pow 10 h]
  rfl

theorem text_eq_stamp (h : precision ≤ 9) (hd : d.ticks ≠ 0) :
    d.text precision false = stamp precision (d.toNat / 10 ^ (9 - precision)) := by
  have hscale : Time.ticksPerSecond = 10 ^ (9 - precision) * 10 ^ precision :=
    (pow_sub_mul_pow 10 h).symm
  have hfraction : d.nanoseconds / 10 ^ (9 - precision) =
      d.toNat / 10 ^ (9 - precision) % 10 ^ precision := by
    rw [nanoseconds, hscale, Nat.mod_mul_right_div_self]
  rw [text_eq d precision hd, Time.fraction_eq, hfraction, seconds_eq d h, stamp]

theorem text_lt_text {d e : Date} (h : precision ≤ 9) (hd : d.ticks ≠ 0) (he : e.ticks ≠ 0)
    (hlt : d.toNat / 10 ^ (9 - precision) < e.toNat / 10 ^ (9 - precision)) :
    d.text precision false < e.text precision false := by
  have hday := day_le_lastDay e
  rw [seconds_eq e h] at hday
  rw [text_eq_stamp d h hd, text_eq_stamp e h he]
  exact stamp_lt_stamp hlt hday

theorem ticks_ne_zero_iff : d.ticks ≠ 0 ↔ 0 < d.toNat := by
  rw [Nat.pos_iff_ne_zero, ne_eq, ne_eq, ← UInt64.toNat_inj]
  rfl

-- All texts of one precision are of the same length, and they are in the order of the times. With
-- all nine decimals, no two times have the same text.
theorem texts_of_dates :
    (∀ (d : Date) (precision : Nat), d.ticks ≠ 0 → precision ≤ 9 →
      (d.text precision false).length = 19 + if precision = 0 then 0 else precision + 1) ∧
    (∀ (d e : Date) (precision : Nat), d.ticks ≠ 0 → d.toNat ≤ e.toNat → precision ≤ 9 →
      d.text precision false ≤ e.text precision false) ∧
    ∀ d e : Date, d.ticks ≠ 0 → d.toNat < e.toNat → d.text 9 false < e.text 9 false := by
  have hset {d e : Date} (hd : d.ticks ≠ 0) (h : d.toNat ≤ e.toNat) : e.ticks ≠ 0 :=
    (ticks_ne_zero_iff e).mpr (((ticks_ne_zero_iff d).mp hd).trans_le h)
  refine ⟨fun d precision hd _ => length_text d precision hd, fun d e precision hd hle h => ?_,
    fun d e hd hlt => ?_⟩
  · have hunits : d.toNat / 10 ^ (9 - precision) ≤ e.toNat / 10 ^ (9 - precision) :=
      Nat.div_le_div_right hle
    have he := hset hd hle
    rcases hunits.lt_or_eq with hlt | heq
    · exact List.le_of_lt (text_lt_text h hd he hlt)
    · rw [text_eq_stamp d h hd, text_eq_stamp e h he, heq]
      exact List.le_refl _
  · exact text_lt_text le_rfl hd (hset hd hlt.le) (by omega)

-- The end of a leap day.
theorem texts_around_midnight :
    let d := ofTimespec 951868799 999999999
    let e := ofTimespec 951868800 0
    d.ticks ≠ 0 ∧ d.toNat < e.toNat ∧
      d.text 9 false = "2000-02-29 23:59:59.999999999" ∧
      e.text 9 false = "2000-03-01 00:00:00.000000000" ∧
      d.text 9 false < e.text 9 false ∧ d.text 0 false ≤ e.text 0 false ∧
      (e.text 0 false).length = 19 := by
  intro d e
  obtain ⟨hlength, hle, hlt⟩ := texts_of_dates
  have hd : d.ticks ≠ 0 := by decide +kernel
  have he : e.ticks ≠ 0 := by decide +kernel
  have horder : d.toNat < e.toNat := by decide +kernel
  exact ⟨hd, horder, by decide +kernel, by decide +kernel, hlt d e hd horder,
    hle d e 0 hd horder.le (by decide), hlength e 0 he (by decide)⟩

end Foreman.Date
