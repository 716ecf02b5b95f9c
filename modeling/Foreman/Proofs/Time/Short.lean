import Foreman.Proofs.Number.Fixed
import Foreman.Time.Delay
import Mathlib.Order.WithBot

namespace Foreman.Delay

-- A range of durations, from `start` milliseconds up to `bound`. They are counted in units of
-- `resolution`, and shown in two fields with a mark between them: `base` units make one of the
-- larger field, which has `width` bytes, and the smaller field has `places` digits. The bytes are
-- enough for all durations of the range, and come to six with the mark and the unit.
structure Scale where
  start : Nat
  bound : Nat
  resolution : Nat
  base : Nat
  width : Nat
  mark : UInt8
  places : Nat
  unit : Text
  resolution_pos : 0 < resolution := by decide
  base_pos : 0 < base := by decide
  width_pos : 0 < width := by decide
  whole_start : resolution ∣ start := by decide
  major_fits : bound ≤ 10 ^ width * base * resolution := by decide
  minor_fits : base ≤ 10 ^ places := by decide
  six_bytes : width + 1 + places + unit.length = 6 := by decide
deriving DecidableEq

namespace Scale

-- Seconds and milliseconds.
def thousandths : Scale :=
  { start := 0, bound := 10 * 1000, resolution := 1, base := 1000,
    width := 1, mark := '.', places := 3, unit := "s" }

-- Seconds and hundredths of them.
def hundredths : Scale :=
  { start := 10 * 1000, bound := 60 * 1000, resolution := 10, base := 100,
    width := 2, mark := '.', places := 2, unit := "s" }

-- Minutes and seconds.
def seconds : Scale :=
  { start := 60 * 1000, bound := 60 * 60 * 1000, resolution := 1000, base := 60,
    width := 2, mark := 'm', places := 2, unit := "s" }

-- Hours and minutes.
def minutes : Scale :=
  { start := 60 * 60 * 1000, bound := 100 * 60 * 60 * 1000, resolution := 60 * 1000, base := 60,
    width := 2, mark := 'h', places := 2, unit := "m" }

-- Hours only: the smaller field is empty.
def hours : Scale :=
  { start := 100 * 60 * 60 * 1000, bound := 100000 * 60 * 60 * 1000, resolution := 60 * 60 * 1000,
    base := 1, width := 5, mark := 'h', places := 0, unit := [] }

end Scale

def scales : List Scale := [.thousandths, .hundredths, .seconds, .minutes, .hours]

def scale? (milliseconds : Nat) : Option Scale :=
  scales.find? fun s => s.start ≤ milliseconds ∧ milliseconds < s.bound

-- A number of milliseconds, cut to the resolution of its range. Beyond all ranges it is infinite.
def cut (milliseconds : Nat) : WithTop Nat :=
  match scale? milliseconds with
  | some s => ((milliseconds / s.resolution * s.resolution : Nat) : WithTop Nat)
  | none => ⊤

structure Fields where
  scale : Scale
  major : Nat
  minor : Nat

def Fields.milliseconds (f : Fields) : Nat :=
  (f.major * f.scale.base + f.minor) * f.scale.resolution

-- The fields of a text, whatever its sign. Its range is told by the mark, by the number of digits
-- behind it, and by the unit.
def scan? (text : Text) : Option Fields :=
  let body := (if text.head? = some ('-' : UInt8) then text.tail else text).dropWhile (· = 32)
  let major := body.takeWhile Text.isDigit
  match body.dropWhile Text.isDigit with
  | [] => none
  | mark :: rest =>
    let minor := rest.takeWhile Text.isDigit
    let unit := rest.dropWhile Text.isDigit
    if major = [] then none
    else
      (scales.find? fun s => s.mark = mark ∧ s.places = minor.length ∧ s.unit = unit).map fun s =>
        ⟨s, Decimal.value major, Decimal.value minor⟩

def read? (text : Text) : Option (WithTop Nat) :=
  if text = "forevr" then some ⊤
  else (scan? text).map fun f => (f.milliseconds : WithTop Nat)

def Scale.text (s : Scale) (count : Nat) : Text :=
  Text.widen (Decimal.digits (count / s.base)) s.width true 32 ++
    s.mark :: (Decimal.fixed (count % s.base) s.places ++ s.unit)

variable {s : Scale} {m n : Nat} {text : Text} {f : Fields}

theorem scale?_spec (h : scale? m = some s) : s ∈ scales ∧ s.start ≤ m ∧ m < s.bound :=
  ⟨List.mem_of_find?_eq_some h, by simpa using List.find?_some h⟩

theorem scales_apart :
    ∀ s ∈ scales, ∀ t ∈ scales, s = t ∨ s.bound ≤ t.start ∨ t.bound ≤ s.start := by
  decide

theorem scale?_of_mem (hs : s ∈ scales) (hm : s.start ≤ m ∧ m < s.bound) : scale? m = some s := by
  cases hfind : scale? m with
  | none => exact absurd hm (by simpa using List.find?_eq_none.mp hfind s hs)
  | some t =>
    obtain ⟨ht, hstart, hbound⟩ := scale?_spec hfind
    obtain rfl | hbefore | hafter := scales_apart s hs t ht
    · rfl
    · omega
    · omega

theorem scale?_eq (m : Nat) :
    scale? m =
      if m < 10 * 1000 then some .thousandths
      else if m < 60 * 1000 then some .hundredths
      else if m < 60 * 60 * 1000 then some .seconds
      else if m < 100 * 60 * 60 * 1000 then some .minutes
      else if m < 100000 * 60 * 60 * 1000 then some .hours
      else none := by
  have hlast : ∀ s ∈ scales, s.bound ≤ 100000 * 60 * 60 * 1000 := by decide
  split_ifs with h₁ h₂ h₃ h₄ h₅
  · exact scale?_of_mem (by decide) ⟨Nat.zero_le m, h₁⟩
  · exact scale?_of_mem (by decide) ⟨Nat.not_lt.mp h₁, h₂⟩
  · exact scale?_of_mem (by decide) ⟨Nat.not_lt.mp h₂, h₃⟩
  · exact scale?_of_mem (by decide) ⟨Nat.not_lt.mp h₃, h₄⟩
  · exact scale?_of_mem (by decide) ⟨Nat.not_lt.mp h₄, h₅⟩
  · refine List.find?_eq_none.mpr fun s hs hm => h₅ ?_
    exact (of_decide_eq_true hm).2.trans_le (hlast s hs)

theorem scale?_eq_none_iff : scale? m = none ↔ 100000 * 60 * 60 * 1000 ≤ m := by
  rw [scale?_eq]
  split_ifs <;> simp <;> omega

-- No two ranges have the same mark, the same number of digits behind it and the same unit, and all
-- of these can be told from digits.
theorem scale_told (h : s ∈ scales) :
    ¬Text.isDigit s.mark ∧ (∀ c, s.unit.head? = some c → ¬Text.isDigit c) ∧
      scales.find? (fun s' => s'.mark = s.mark ∧ s'.places = s.places ∧ s'.unit = s.unit) =
        some s := by
  have htold : ∀ s ∈ scales, ¬Text.isDigit s.mark ∧ (s.unit.head?.all fun c => !Text.isDigit c) ∧
      scales.find? (fun s' => s'.mark = s.mark ∧ s'.places = s.places ∧ s'.unit = s.unit) =
        some s := by decide
  obtain ⟨hmark, hunit, hfind⟩ := htold s h
  refine ⟨hmark, fun c hc => ?_, hfind⟩
  rw [hc] at hunit
  simpa using hunit

theorem major_lt (h : scale? m = some s) : m / s.resolution / s.base < 10 ^ s.width := by
  obtain ⟨-, -, hbound⟩ := scale?_spec h
  rw [Nat.div_lt_iff_lt_mul s.base_pos, Nat.div_lt_iff_lt_mul s.resolution_pos]
  exact hbound.trans_le s.major_fits

theorem minor_lt (s : Scale) (count : Nat) : count % s.base < 10 ^ s.places :=
  (Nat.mod_lt count s.base_pos).trans_le s.minor_fits

theorem length_scale_text (s : Scale) {count : Nat} (hcount : count / s.base < 10 ^ s.width) :
    (s.text count).length = 6 := by
  have hdigits := Decimal.length_digits_le hcount s.width_pos
  have hsum := s.six_bytes
  rw [Scale.text, Text.widen, if_pos rfl, List.length_append, List.length_append,
    List.length_replicate, List.length_cons, List.length_append, Decimal.length_fixed]
  omega

theorem fields_eq (s : Scale) (hplaces : 0 < s.places) (count : Nat) :
    fields s.width (count / s.base) [s.mark] s.places (count % s.base) s.unit = s.text count := by
  rw [fields, Decimal.widen_digits (minor_lt s count) hplaces, List.append_assoc, List.append_assoc]
  rfl

-- What is left of the number after each test is the number of units of the next range.
theorem magnitudeText_eq (m : Nat) :
    magnitudeText m =
      match scale? m with
      | some s => s.text (m / s.resolution)
      | none => "forevr" := by
  have hseconds : m / 10 / 100 = m / 1000 := Nat.div_div_eq_div_mul m 10 100
  have hminutes : m / 10 / 100 / 60 = m / (60 * 1000) := by omega
  have hhours : m / 10 / 100 / 60 / 60 = m / (60 * 60 * 1000) := by omega
  have hbelowMinute : m / 10 < 60 * 100 ↔ m < 60 * 1000 := by omega
  have hbelowHour : m / 10 / 100 < 60 * 60 ↔ m < 60 * 60 * 1000 := by omega
  have hbelowHundred : m / 10 / 100 / 60 < 100 * 60 ↔ m < 100 * 60 * 60 * 1000 := by omega
  have hbelowLast : m / 10 / 100 / 60 / 60 < 100000 ↔ m < 100000 * 60 * 60 * 1000 := by omega
  unfold magnitudeText
  simp only [hbelowMinute, hbelowHour, hbelowHundred, hbelowLast, scale?_eq]
  split_ifs
  · exact (fields_eq .thousandths (by decide) m).trans
      (congrArg Scale.thousandths.text (Nat.div_one m).symm)
  · exact fields_eq .hundredths (by decide) (m / 10)
  · exact (fields_eq .seconds (by decide) (m / 10 / 100)).trans
      (congrArg Scale.seconds.text hseconds)
  · exact (fields_eq .minutes (by decide) (m / 10 / 100 / 60)).trans
      (congrArg Scale.minutes.text hminutes)
  · dsimp only [Scale.text, Scale.hours]
    rw [hhours, Nat.div_one]
    rfl
  · rfl

theorem natAbs_milliseconds (d : Delay) : d.milliseconds.natAbs = d.toInt.natAbs / 10 ^ 6 :=
  Int.natAbs_tdiv d.toInt 1000000

theorem milliseconds_neg_iff (d : Delay) : d.milliseconds < 0 ↔ d.toInt ≤ -10 ^ 6 := by
  have habs := natAbs_milliseconds d
  have hpos : 0 ≤ d.toInt → 0 ≤ d.milliseconds := fun h => Int.tdiv_nonneg h (by decide)
  have hneg : d.toInt ≤ 0 → 0 ≤ -d.milliseconds := fun h => by
    rw [milliseconds, ← Int.neg_tdiv]
    exact Int.tdiv_nonneg (by omega) (by decide)
  omega

theorem short_eq (d : Delay) :
    ∃ sign : Text, d.short = sign ++ magnitudeText (d.toInt.natAbs / 10 ^ 6) ∧
      (sign = [('-' : UInt8)] ∧ d.toInt ≤ -10 ^ 6 ∧ -(100000 * 60 * 60 * 10 ^ 9) < d.toInt ∨
        sign = [] ∧ (-10 ^ 6 < d.toInt ∨ d.toInt ≤ -(100000 * 60 * 60 * 10 ^ 9))) := by
  have hendless : d.toInt.natAbs / 10 ^ 6 ≥ 100000 * 60 * 60 * 1000 ↔
      100000 * 60 * 60 * 10 ^ 9 ≤ d.toInt.natAbs := by omega
  refine ⟨_, by rw [short, natAbs_milliseconds], ?_⟩
  simp only [hendless, milliseconds_neg_iff, Bool.and_eq_true, Bool.not_eq_true',
    decide_eq_true_eq, decide_eq_false_iff_not, not_le]
  split
  case isTrue h => exact .inl ⟨rfl, h.1, by omega⟩
  case isFalse h => exact .inr ⟨rfl, by omega⟩

-- Six bytes for what is not negative, and for what is less than a millisecond or beyond all ranges.
-- All other negative durations have a seventh one for their sign.
theorem length_of_short_text (d : Delay) :
    d.short.length =
      if -(100000 * 60 * 60 * 10 ^ 9) < d.toInt ∧ d.toInt ≤ -10 ^ 6 then 7 else 6 := by
  have hmagnitude : (magnitudeText (d.toInt.natAbs / 10 ^ 6)).length = 6 := by
    rw [magnitudeText_eq]
    split
    case h_1 s hscale => exact length_scale_text s (major_lt hscale)
    case h_2 => rfl
  obtain ⟨sign, htext, ⟨rfl, hhigh, hlow⟩ | ⟨rfl, hunsigned⟩⟩ := short_eq d
  · rw [htext, if_pos ⟨hlow, hhigh⟩, List.length_append, hmagnitude]
    rfl
  · rw [htext, if_neg (by omega), List.nil_append, hmagnitude]

-- One second less than nothing.
theorem length_of_negative_second :
    (ofSeconds (-1)).short = "-1.000s" ∧ (ofSeconds (-1)).short.length ≠ 6 := by
  decide +kernel

-- Beyond all ranges there is no sign.
example : (ofSeconds (-360000000)).short = "forevr" := by decide +kernel

theorem scale_text_starts (s : Scale) (count : Nat) :
    (s.text count).head? ≠ some ('-' : UInt8) ∧
      (s.text count).dropWhile (· = 32) = Decimal.digits (count / s.base) ++
        s.mark :: (Decimal.fixed (count % s.base) s.places ++ s.unit) := by
  obtain ⟨c, tail, hdigits⟩ := List.exists_cons_of_ne_nil (Decimal.digits_ne_nil (count / s.base))
  have hc : Text.isDigit c := Decimal.isDigit_of_mem_digits (hdigits ▸ List.mem_cons_self)
  have hminus : c ≠ '-' := by
    rintro rfl
    exact absurd hc (by decide)
  have hblank : ¬decide (c = 32) = true := by
    rw [decide_eq_true_iff]
    rintro rfl
    exact absurd hc (by decide)
  rw [Scale.text, Text.widen, if_pos rfl, List.append_assoc, hdigits]
  constructor
  · cases s.width - (c :: tail).length with
    | zero => exact fun hhead => hminus (Option.some.inj hhead)
    | succ k => exact fun hhead => absurd (Option.some.inj hhead) (by decide)
  · rw [List.dropWhile_append_of_pos fun c hc => decide_eq_true (List.eq_of_mem_replicate hc),
      List.cons_append, List.dropWhile_cons_of_neg (p := fun c => decide (c = 32)) hblank]

theorem scan?_scale_text (h : s ∈ scales) {sign : Text}
    (hsign : sign = [] ∨ sign = [('-' : UInt8)]) (count : Nat) :
    scan? (sign ++ s.text count) = some ⟨s, count / s.base, count % s.base⟩ := by
  obtain ⟨hmark, hunit, htold⟩ := scale_told h
  obtain ⟨hhead, hdrop⟩ := scale_text_starts s count
  have hbody : (if (sign ++ s.text count).head? = some ('-' : UInt8) then
      (sign ++ s.text count).tail else sign ++ s.text count) = s.text count := by
    rcases hsign with rfl | rfl
    · exact if_neg hhead
    · exact if_pos rfl
  have hmajorDigits : ∀ c ∈ Decimal.digits (count / s.base), Text.isDigit c := fun c hc =>
    Decimal.isDigit_of_mem_digits hc
  have hminorDigits : ∀ c ∈ Decimal.fixed (count % s.base) s.places, Text.isDigit c := fun c hc =>
    Decimal.isDigit_of_mem_fixed hc
  have hnext : ∀ c, (s.mark :: (Decimal.fixed (count % s.base) s.places ++ s.unit)).head? = some c →
      ¬Text.isDigit c := by
    rintro c ⟨⟩
    exact hmark
  obtain ⟨hmajor, hrest⟩ := Decimal.takeWhile_digits hmajorDigits hnext
  obtain ⟨hminor, hlast⟩ := Decimal.takeWhile_digits hminorDigits hunit
  unfold scan?
  simp only [hbody, hdrop, hmajor, hrest, hminor, hlast, if_neg (Decimal.digits_ne_nil _),
    Decimal.length_fixed, htold, Option.map_some, Decimal.value_digits, Decimal.value_fixed]
  rw [Nat.mod_eq_of_lt (minor_lt s count)]

theorem scan?_endless : scan? "forevr" = none := by decide

theorem read?_of_scan? (h : scan? text = some f) :
    read? text = some (f.milliseconds : WithTop Nat) := by
  have hne : text ≠ "forevr" := by
    rintro rfl
    exact absurd (scan?_endless.symm.trans h) nofun
  rw [read?, if_neg hne, h, Option.map_some]

theorem read?_short (d : Delay) :
    read? d.short = some (cut (d.toInt.natAbs / 10 ^ 6)) ∧
      ∀ f, scan? d.short = some f → f.minor < f.scale.base := by
  obtain ⟨sign, htext, hsign⟩ := short_eq d
  rw [htext, magnitudeText_eq, cut]
  cases hscale : scale? (d.toInt.natAbs / 10 ^ 6) with
  | none =>
    have hmany := scale?_eq_none_iff.mp hscale
    obtain rfl : sign = [] := by
      rcases hsign with ⟨-, hhigh, hlow⟩ | ⟨h, -⟩
      · omega
      · exact h
    exact ⟨rfl, fun f hf => absurd (scan?_endless.symm.trans hf) nofun⟩
  | some s =>
    have hscan := scan?_scale_text (scale?_spec hscale).1 (hsign.symm.imp And.left And.left)
      (d.toInt.natAbs / 10 ^ 6 / s.resolution)
    refine ⟨?_, fun f hf => ?_⟩
    · rw [read?_of_scan? hscan, Fields.milliseconds, Nat.div_add_mod']
    · cases hscan.symm.trans hf
      exact Nat.mod_lt _ s.base_pos

-- A later range starts at a whole number of its units, so that nothing that is cut there falls below
-- what is cut in an earlier one.
theorem cut_mono (h : m ≤ n) : cut m ≤ cut n := by
  unfold cut
  cases hn : scale? n with
  | none => exact le_top
  | some t =>
    obtain ⟨ht, hstart, hbound⟩ := scale?_spec hn
    cases hm : scale? m with
    | none =>
      have hnone := scale?_eq_none_iff.mpr ((scale?_eq_none_iff.mp hm).trans h)
      exact absurd (hnone.symm.trans hn) nofun
    | some s =>
      obtain ⟨hs, hstart', hbound'⟩ := scale?_spec hm
      refine WithTop.coe_le_coe.mpr ?_
      obtain rfl | hbefore | hafter := scales_apart s hs t ht
      · exact Nat.mul_le_mul_right _ (Nat.div_le_div_right h)
      · calc m / s.resolution * s.resolution ≤ m := Nat.div_mul_le_self m s.resolution
          _ ≤ t.start := hbound'.le.trans hbefore
          _ = t.start / t.resolution * t.resolution := (Nat.div_mul_cancel t.whole_start).symm
          _ ≤ n / t.resolution * t.resolution :=
            Nat.mul_le_mul_right _ (Nat.div_le_div_right hstart)
      · omega

-- A text is read as the duration, cut to the resolution of its range, whatever its sign. The smaller
-- field stays below its base. A longer duration is not read as a shorter one.
theorem reading_of_short_texts :
    (∀ d : Delay, read? d.short = some (cut (d.toInt.natAbs / 10 ^ 6)) ∧
      ∀ f, scan? d.short = some f → f.minor < f.scale.base) ∧
    ∀ d e : Delay, 0 ≤ d.toInt → d.toInt ≤ e.toInt →
      ∃ x y, read? d.short = some x ∧ read? e.short = some y ∧ x ≤ y := by
  refine ⟨read?_short, fun d e hd h => ?_⟩
  refine ⟨_, _, (read?_short d).1, (read?_short e).1, cut_mono (Nat.div_le_div_right ?_)⟩
  omega

-- The last text with a point and the first one with minutes.
theorem reading_around_a_minute :
    let d := ofTimespec 59 999999999
    let e := ofSeconds 60
    0 ≤ d.toInt ∧ d.toInt ≤ e.toInt ∧ d.short = "59.99s" ∧ e.short = " 1m00s" ∧
      ∃ x y, read? "59.99s" = some x ∧ read? " 1m00s" = some y ∧ x ≤ y := by
  intro d e
  have hd : 0 ≤ d.toInt := by decide +kernel
  have hle : d.toInt ≤ e.toInt := by decide +kernel
  have htext : d.short = "59.99s" := by decide +kernel
  have htext' : e.short = " 1m00s" := by decide +kernel
  have hread := reading_of_short_texts.2 d e hd hle
  rw [htext, htext'] at hread
  exact ⟨hd, hle, htext, htext', hread⟩

end Foreman.Delay
