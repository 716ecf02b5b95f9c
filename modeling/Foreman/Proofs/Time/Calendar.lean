import Foreman.Time.Date
import Mathlib.Data.Prod.Lex
import Mathlib.Order.Monotone.Basic

namespace Foreman.Calendar

def monthLength (leap : Bool) (month : Nat) : Nat :=
  if month = 2 then if leap then 29 else 28
  else if month = 4 ∨ month = 6 ∨ month = 9 ∨ month = 11 then 30
  else 31

def Day.nextIn (leap : Bool) (d : Day) : Day :=
  if d.day < monthLength leap d.month then ⟨d.year, d.month, d.day + 1⟩
  else if d.month < 12 then ⟨d.year, d.month + 1, 1⟩
  else ⟨d.year + 1, 1, 1⟩

def Day.next (d : Day) : Day := d.nextIn (isLeap d.year)

def Day.after (years : Nat) (d : Day) : Day := ⟨years + d.year, d.month, d.day⟩

theorem Day.nextIn_after (years : Nat) (leap : Bool) (d : Day) :
    (d.after years).nextIn leap = (d.nextIn leap).after years := by
  rw [nextIn, nextIn, apply_ite (after years), apply_ite (after years)]
  rfl

-- Days are in the order of their years, then their months, then their days of the month.
def Day.key (d : Day) : Nat ×ₗ Nat ×ₗ Nat := toLex (d.year, toLex (d.month, d.day))

theorem Day.key_lt_key_iff {d e : Day} :
    d.key < e.key ↔
      d.year < e.year ∨ d.year = e.year ∧
        (d.month < e.month ∨ d.month = e.month ∧ d.day < e.day) := by
  simp only [key, Prod.Lex.toLex_lt_toLex]

theorem Day.key_lt_key_next (d : Day) : d.key < d.next.key := by
  rw [key_lt_key_iff, next, nextIn]
  split
  case isTrue => exact .inr ⟨rfl, .inr ⟨rfl, Nat.lt_succ_self d.day⟩⟩
  case isFalse =>
    split
    case isTrue => exact .inr ⟨rfl, .inl (Nat.lt_succ_self d.month)⟩
    case isFalse => exact .inl (Nat.lt_succ_self d.year)

section Years

-- Years that start in March. The leap day, if there is one, is the last day.

variable {year day : Nat}

def yearStart (year : Nat) : Nat := 365 * year + year / 4 - year / 100 + year / 400

def yearDays (leap : Bool) : Nat := if leap then 366 else 365

-- January and February are those of the next year.
def yearLength (year : Nat) : Nat := yearDays (isLeap (year + 1))

def monthOf (day : Nat) : Nat :=
  let shifted := (5 * day + 2) / 153
  if shifted < 10 then shifted + 3 else shifted - 9

def dayOf (day : Nat) : Nat :=
  day - (153 * ((5 * day + 2) / 153) + 2) / 5 + 1

def ofYear (year day : Nat) : Day :=
  ⟨year + if monthOf day ≤ 2 then 1 else 0, monthOf day, dayOf day⟩

theorem isLeap_iff : isLeap year = true ↔ 4 ∣ year ∧ (100 ∣ year → 400 ∣ year) := by
  simp only [isLeap, Bool.and_eq_true, Bool.or_eq_true, decide_eq_true_eq,
    Nat.dvd_iff_mod_eq_zero, imp_iff_not_or, ne_eq]

theorem yearStart_succ (year : Nat) : yearStart (year + 1) = yearStart year + yearLength year := by
  have hle : year / 100 ≤ year := Nat.div_le_self year 100
  have hcentury : 100 ∣ year + 1 → 4 ∣ year + 1 := Nat.dvd_trans (by decide)
  have hera : 400 ∣ year + 1 → 100 ∣ year + 1 := Nat.dvd_trans (by decide)
  simp only [yearStart, yearLength, yearDays, isLeap_iff, Nat.succ_div]
  generalize year / 4 = a, year / 100 = b, year / 400 = c at *
  split_ifs <;> omega

theorem yearLength_pos (year : Nat) : 0 < yearLength year := by
  unfold yearLength yearDays
  split <;> decide

theorem yearLength_le (year : Nat) : yearLength year ≤ 366 := by
  unfold yearLength yearDays
  split <;> decide

-- The induction counts the days: a year is over when its last day is.
theorem exists_yearStart_add (n : Nat) :
    ∃ year day, day < yearLength year ∧ n = yearStart year + day := by
  induction n with
  | zero => exact ⟨0, 0, yearLength_pos 0, rfl⟩
  | succ n ih =>
    obtain ⟨year, day, hday, rfl⟩ := ih
    by_cases h : day + 1 < yearLength year
    · exact ⟨year, day + 1, h, rfl⟩
    · refine ⟨year + 1, 0, yearLength_pos (year + 1), ?_⟩
      rw [yearStart_succ]
      omega

theorem yearStart_mono : Monotone yearStart := by
  refine monotone_nat_of_le_succ fun year => ?_
  rw [yearStart_succ]
  exact Nat.le_add_right _ _

theorem yearStart_era (era year : Nat) :
    yearStart (400 * era + year) = 146097 * era + yearStart year := by
  unfold yearStart
  omega

theorem yearLength_era (era year : Nat) : yearLength (400 * era + year) = yearLength year := by
  have h := yearStart_succ (400 * era + year)
  rw [Nat.add_assoc, yearStart_era, yearStart_era, yearStart_succ] at h
  omega

def yearOfEra (day : Nat) : Nat := (day - day / 1460 + day / 36524 - day / 146096) / 365

theorem yearOfEra_mono : Monotone yearOfEra := by
  refine monotone_nat_of_le_succ fun n => Nat.div_le_div_right ?_
  omega

theorem yearOfEra_ends : ∀ year < 400,
    yearOfEra (yearStart year) = year ∧ yearOfEra (yearStart (year + 1) - 1) = year := by
  decide +kernel

-- It is enough to look at the first and the last day of every year.
theorem yearOfEra_eq (hyear : year < 400) (hday : day < yearLength year) :
    yearOfEra (yearStart year + day) = year := by
  obtain ⟨hfirst, hlast⟩ := yearOfEra_ends year hyear
  have hnext := yearStart_succ year
  apply le_antisymm
  · exact (yearOfEra_mono (by omega)).trans_eq hlast
  · exact hfirst.symm.trans_le (yearOfEra_mono (Nat.le_add_right _ _))

theorem ofDaysSinceMarch_eq_ofYear (n : Nat) :
    let dayOfEra := n % 146097
    let year := yearOfEra dayOfEra
    ofDaysSinceMarch n =
      ofYear (year + n / 146097 * 400) (dayOfEra - (365 * year + year / 4 - year / 100)) := rfl

theorem ofDaysSinceMarch_eq (hday : day < yearLength year) :
    ofDaysSinceMarch (yearStart year + day) = ofYear year day := by
  obtain ⟨era, year, hyear, rfl⟩ : ∃ era year', year' < 400 ∧ year = 400 * era + year' :=
    ⟨year / 400, year % 400, Nat.mod_lt year (by decide), (Nat.div_add_mod year 400).symm⟩
  rw [yearLength_era] at hday
  have hlast : yearStart year + day < 146097 := by
    have hnext : yearStart (year + 1) ≤ yearStart 400 := yearStart_mono hyear
    rw [yearStart_succ] at hnext
    exact (Nat.add_lt_add_left hday _).trans_le hnext
  have hera : (146097 * era + (yearStart year + day)) / 146097 = era := by omega
  have hrest : (146097 * era + (yearStart year + day)) % 146097 = yearStart year + day := by omega
  have hstart : 365 * year + year / 4 - year / 100 = yearStart year := by
    rw [yearStart, Nat.div_eq_of_lt hyear, Nat.add_zero]
  rw [yearStart_era, Nat.add_assoc, ofDaysSinceMarch_eq_ofYear, hera, hrest,
    yearOfEra_eq hyear hday, hstart, Nat.add_sub_cancel_left, Nat.add_comm year, Nat.mul_comm era]

theorem monthOf_dayOf_le : ∀ day < 366, monthOf day ≤ 12 ∧ dayOf day ≤ 31 := by
  decide +kernel

theorem nextIn_ofYear_zero (leap : Bool) : ∀ day < yearDays leap,
    (ofYear 0 day).nextIn leap =
      if day + 1 < yearDays leap then ofYear 0 (day + 1) else ofYear 1 0 := by
  cases leap <;> decide +kernel

theorem after_ofYear (years year day : Nat) :
    (ofYear year day).after years = ofYear (years + year) day := by
  unfold Day.after ofYear
  rw [Nat.add_assoc]

-- Only the length of February depends on the year, and then it is the next one.
theorem monthLength_ofYear (year day : Nat) :
    monthLength (isLeap (ofYear year day).year) (ofYear year day).month =
      monthLength (isLeap (year + 1)) (ofYear year day).month := by
  by_cases h : monthOf day ≤ 2
  · have hyear : (ofYear year day).year = year + 1 := congrArg (year + ·) (if_pos h)
    rw [hyear]
  · have hmonth : (ofYear year day).month ≠ 2 := fun hfebruary => h hfebruary.le
    rw [monthLength, monthLength, if_neg hmonth, if_neg hmonth]

theorem next_ofYear (hday : day < yearLength year) :
    (ofYear year day).next =
      if day + 1 < yearLength year then ofYear year (day + 1) else ofYear (year + 1) 0 := by
  have htable := congrArg (Day.after year) (nextIn_ofYear_zero (isLeap (year + 1)) day hday)
  rw [← Day.nextIn_after, apply_ite (Day.after year), after_ofYear, after_ofYear, after_ofYear,
    Nat.add_zero] at htable
  rw [Day.next, Day.nextIn, monthLength_ofYear]
  exact htable

theorem ofDaysSinceMarch_succ (n : Nat) : ofDaysSinceMarch (n + 1) = (ofDaysSinceMarch n).next := by
  obtain ⟨year, day, hday, rfl⟩ := exists_yearStart_add n
  rw [congrArg Day.next (ofDaysSinceMarch_eq hday), next_ofYear hday]
  split
  case isTrue h => rw [Nat.add_assoc, ofDaysSinceMarch_eq h]
  case isFalse h =>
    have hlast : yearStart year + day + 1 = yearStart (year + 1) + 0 := by
      rw [yearStart_succ]
      omega
    rw [hlast, ofDaysSinceMarch_eq (yearLength_pos (year + 1))]

theorem ofDaysSinceMarch_le (n : Nat) :
    (ofDaysSinceMarch n).month ≤ 12 ∧ (ofDaysSinceMarch n).day ≤ 31 := by
  obtain ⟨year, day, hday, rfl⟩ := exists_yearStart_add n
  rw [ofDaysSinceMarch_eq hday]
  exact monthOf_dayOf_le day (hday.trans_le (yearLength_le year))

end Years

theorem ofDays_succ (n : Nat) : ofDays (n + 1) = (ofDays n).next :=
  (congrArg ofDaysSinceMarch (Nat.add_right_comm n 1 719468)).trans (ofDaysSinceMarch_succ _)

example : ofDays 0 = ⟨1970, 1, 1⟩ := by decide +kernel

theorem ofDays_le (n : Nat) : (ofDays n).month ≤ 12 ∧ (ofDays n).day ≤ 31 :=
  ofDaysSinceMarch_le (n + 719468)

theorem key_ofDays_strictMono : StrictMono fun n => (ofDays n).key :=
  strictMono_nat_of_lt_succ fun n => (Day.key_lt_key_next (ofDays n)).trans_eq
    (congrArg Day.key (ofDays_succ n)).symm

theorem year_ofDays_mono : Monotone fun n => (ofDays n).year := fun _ _ h =>
  Prod.Lex.monotone_fst _ _ (key_ofDays_strictMono.monotone h)

end Foreman.Calendar
