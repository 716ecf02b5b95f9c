import Foreman.Number.Size
import Foreman.Proofs.Number.Numeral

namespace Foreman

namespace FixedPoint

variable {rest : Text}

theorem scan_text {n : Int} (hn : n.natAbs < 2 ^ 128) (hrest : EndsDigits rest) :
    ∃ number, ∃ y : Int, scan (Decimal.text n ++ rest) = some (number, rest) ∧
      number.value? = some (y : ℚ) ∧ Magnitude.Exact y.natAbs ∧ y.natAbs ≤ 2 * n.natAbs ∧
      (Magnitude.Exact n.natAbs → y = n) := by
  have hread := fun negative => scan_digits negative (Decimal.digits_ne_nil n.natAbs)
    (fun _ => Decimal.isDigit_of_mem_digits) ((Decimal.value_digits n.natAbs).symm ▸ hn) hrest
  rw [Decimal.value_digits] at hread
  rw [Decimal.text_eq, List.append_assoc]
  by_cases hsigned : n < 0
  · obtain ⟨number, y, hscan, hvalue, hexact, hle, hsame⟩ := hread true
    rw [if_pos hsigned]
    refine ⟨number, -y, hscan, ?_, by rwa [Int.natAbs_neg], by rwa [Int.natAbs_neg], fun h => ?_⟩
    · rw [hvalue, if_pos rfl, Int.cast_neg, Int.cast_natCast]
    · rw [hsame h]
      omega
  · obtain ⟨number, y, hscan, hvalue, hexact, hle, hsame⟩ := hread false
    rw [if_neg hsigned]
    refine ⟨number, y, hscan, ?_, hexact, hle, fun h => ?_⟩
    · rw [hvalue, if_neg Bool.false_ne_true, Int.cast_natCast]
    · rw [hsame h]
      omega

end FixedPoint

namespace SizeUnit

theorem rank_of_next? {unit larger : SizeUnit} (h : unit.next? = some larger) :
    larger.rank = unit.rank + 1 := by
  cases unit <;> cases h <;> rfl

theorem rank_le (unit : SizeUnit) : unit.rank ≤ 6 := by
  cases unit <;> decide

theorem eq_exa_of_next? {unit : SizeUnit} (h : unit.next? = none) : unit = .exa := by
  cases unit <;> first | rfl | cases h

theorem eq_exa_of_rank {unit : SizeUnit} (h : 6 ≤ unit.rank) : unit = .exa := by
  cases unit <;> first | rfl | (simp [rank] at h)

theorem length_letter?_le (unit : SizeUnit) : unit.letter?.toList.length ≤ 1 := by
  cases unit <;> decide

theorem ofByte?_letter? (unit : SizeUnit) :
    ofByte? (unit.letter?.toList.head?.getD 0) = some unit := by
  cases unit <;> rfl

theorem endsDigits_letter? (unit : SizeUnit) : FixedPoint.EndsDigits unit.letter?.toList := by
  intro c hc
  cases unit with
  | one => cases hc
  | kilo | mega | giga | tera | peta | exa =>
    cases hc
    decide

end SizeUnit

namespace Size

variable {unit : SizeUnit} {t : IntType}

-- The induction is on the fuel. Each division by 1024 goes along with a larger unit.
theorem normalize_spec (fuel : Nat) (n : Int) (unit : SizeUnit) :
    unit.rank ≤ (normalize fuel n unit).2.rank ∧
      n = (normalize fuel n unit).1 * 1024 ^ ((normalize fuel n unit).2.rank - unit.rank) := by
  induction fuel generalizing n unit with
  | zero => exact ⟨le_rfl, by rw [normalize, Nat.sub_self, pow_zero, mul_one]⟩
  | succ fuel ih =>
    unfold normalize
    cases hnext : unit.next? with
    | none => exact ⟨le_rfl, by rw [Nat.sub_self, pow_zero, mul_one]⟩
    | some larger =>
      dsimp only
      by_cases hwhole : n % 1024 = 0
      case neg =>
        rw [if_neg hwhole]
        exact ⟨le_rfl, by rw [Nat.sub_self, pow_zero, mul_one]⟩
      case pos =>
        rw [if_pos hwhole]
        have hrank := SizeUnit.rank_of_next? hnext
        obtain ⟨hle, hvalue⟩ := ih (n / 1024) larger
        generalize normalize fuel (n / 1024) larger = normal at *
        refine ⟨by omega, ?_⟩
        have hexponent : normal.2.rank - unit.rank = normal.2.rank - larger.rank + 1 := by omega
        rw [hexponent, pow_succ, ← mul_assoc, ← hvalue]
        omega

-- The fuel is enough for as many divisions as there are larger units, so that a larger unit is only
-- passed over if the number is not whole in it.
theorem normalize_largest (fuel : Nat) (n : Int) (unit : SizeUnit) (hfuel : 6 ≤ fuel + unit.rank) :
    ¬1024 ∣ (normalize fuel n unit).1 ∨ (normalize fuel n unit).2 = .exa := by
  induction fuel generalizing n unit with
  | zero =>
    have hrank : 6 ≤ unit.rank := by omega
    exact .inr (SizeUnit.eq_exa_of_rank hrank)
  | succ fuel ih =>
    unfold normalize
    cases hnext : unit.next? with
    | none => exact .inr (SizeUnit.eq_exa_of_next? hnext)
    | some larger =>
      dsimp only
      by_cases hwhole : n % 1024 = 0
      case neg =>
        rw [if_neg hwhole]
        exact .inl (mt Int.emod_eq_zero_of_dvd hwhole)
      case pos =>
        rw [if_pos hwhole]
        have hrank := SizeUnit.rank_of_next? hnext
        exact ih (n / 1024) larger (by omega)

theorem write_spec (unit : SizeUnit) (n : Int) :
    ∃ (m : Int) (larger : SizeUnit), write unit n = Decimal.text m ++ larger.letter?.toList ∧
      unit.rank ≤ larger.rank ∧ n = m * 1024 ^ (larger.rank - unit.rank) ∧
      (n = 0 ∧ larger = unit ∨ n ≠ 0 ∧ (¬1024 ∣ m ∨ larger = .exa)) := by
  by_cases hzero : n = 0
  · exact ⟨n, unit, by rw [write, if_pos hzero], le_rfl, by rw [Nat.sub_self, pow_zero, mul_one],
      .inl ⟨hzero, rfl⟩⟩
  · obtain ⟨hle, hvalue⟩ := normalize_spec 6 n unit
    exact ⟨_, _, by rw [write, if_neg hzero], hle, hvalue,
      .inr ⟨hzero, normalize_largest 6 n unit (Nat.le_add_right 6 unit.rank)⟩⟩

-- The bounds that a size is checked against are those of the type, the least number of the widest
-- signed type left out.
theorem fits_of_bounds {y : Int} (hhigh : y ≤ t.max) (hlow : lowerBound t < y) : t.Fits y := by
  refine ⟨?_, hhigh⟩
  unfold lowerBound at hlow
  split at hlow <;> omega

theorem coerce_of_fits {n : Int} (h : t.Fits n) : coerce t n = n := if_pos h

-- The whole number next to a size, on the side that is asked for.
def rounded (roundUp : Bool) (x : ℚ) : Int :=
  if roundUp then ⌈x⌉ else ⌊x⌋

theorem rounded_intCast (roundUp : Bool) (y : Int) : rounded roundUp y = y := by
  cases roundUp with
  | false => exact Int.floor_intCast y
  | true => exact Int.ceil_intCast y

theorem read_of_value {text rest : Text} {given : SizeUnit} {number : Double} {x : ℚ}
    (roundUp : Bool) (hscan : FixedPoint.scan text = some (number, rest))
    (hrest : rest.length ≤ 1) (hgiven : SizeUnit.ofByte? (rest.head?.getD 0) = some given)
    (hvalue : (number.scaleTwo (10 * ((given.rank : Int) - unit.rank))).value? = some x) :
    read unit t roundUp text =
      if (t.max + 1 : Int) ≤ x then .error .overflow
      else if x ≤ lowerBound t then .error .underflow else .ok (coerce t (rounded roundUp x)) := by
  generalize hscaled : number.scaleTwo (10 * ((given.rank : Int) - unit.rank)) = scaled at hvalue
  have hover : (!scaled.below (t.max + 1)) = true ↔ ((t.max + 1 : Int) : ℚ) ≤ x := by
    rw [Bool.not_eq_true', ← Bool.not_eq_true, Double.below_iff hvalue, not_lt]
  have hunder : (!scaled.above (lowerBound t)) = true ↔ x ≤ lowerBound t := by
    rw [Bool.not_eq_true', ← Bool.not_eq_true, Double.above_iff hvalue, not_lt]
  have hround : (if roundUp then scaled.ceil? else scaled.floor?) = some (rounded roundUp x) := by
    cases roundUp with
    | false => exact Double.floor?_eq hvalue
    | true => exact Double.ceil?_eq hvalue
  unfold read
  rw [hscan]
  dsimp only
  rw [if_neg (Nat.not_lt.mpr hrest), hgiven]
  dsimp only
  rw [hscaled, hround]
  simp only [hover, hunder]

theorem read_of_whole {text : Text} {given : SizeUnit} {number : Double} {y : Int}
    (hscan : FixedPoint.scan text = some (number, given.letter?.toList))
    (hvalue : (number.scaleTwo (10 * ((given.rank : Int) - unit.rank))).value? = some (y : ℚ)) :
    read unit t false text =
      if t.max < y then .error .overflow
      else if y ≤ lowerBound t then .error .underflow else .ok y := by
  rw [read_of_value false hscan given.length_letter?_le given.ofByte?_letter? hvalue,
    rounded_intCast]
  simp only [Int.cast_le, Int.add_one_le_iff]
  split_ifs with hover hunder
  · rfl
  · rfl
  · rw [coerce_of_fits (fits_of_bounds (not_lt.mp hover) (not_le.mp hunder))]

theorem read_write (unit : SizeUnit) (t : IntType) {x : Int} (hx : x.natAbs ≤ 2 ^ 64) :
    ∃ y : Int, Magnitude.Exact y.natAbs ∧ (Magnitude.Exact x.natAbs → y = x) ∧
      read unit t false (write unit x) =
        if t.max < y then .error .overflow
        else if y ≤ lowerBound t then .error .underflow else .ok y := by
  obtain ⟨m, larger, htext, hle, rfl, -⟩ := write_spec unit x
  let s := 10 * (larger.rank - unit.rank)
  have hfactor : (1024 : Int) ^ (larger.rank - unit.rank) = ((2 ^ s : Nat) : Int) := by
    push_cast
    rw [pow_mul]
    norm_num
  have hs : s ≤ 128 := by
    have := larger.rank_le
    omega
  have habs : (m * 1024 ^ (larger.rank - unit.rank)).natAbs = m.natAbs * 2 ^ s := by
    rw [hfactor, Int.natAbs_mul, Int.natAbs_natCast]
  rw [habs] at hx
  have hm : m.natAbs ≤ 2 ^ 64 := (Nat.le_mul_of_pos_right _ (Nat.two_pow_pos s)).trans hx
  obtain ⟨number, y, hscan, hvalue, hexact, hbound, hsame⟩ :=
    FixedPoint.scan_text (hm.trans_lt (by norm_num)) larger.endsDigits_letter?
  have hscale : 10 * ((larger.rank : Int) - unit.rank) = (s : Nat) := by omega
  have hscaled : (number.scaleTwo (10 * ((larger.rank : Int) - unit.rank))).value? =
      some ((y * 2 ^ s : Int) : ℚ) := by
    rw [hscale]
    exact Double.value?_scaleTwo_of_exact hvalue hexact (by omega) hs
  refine ⟨y * 2 ^ s, ?_, fun h => ?_, ?_⟩
  · rw [Int.natAbs_mul, Int.natAbs_pow]
    exact (Magnitude.exact_mul_pow_iff s).mpr hexact
  · rw [habs, Magnitude.exact_mul_pow_iff] at h
    rw [hsame h, hfactor]
    push_cast
    rfl
  · rw [htext]
    exact read_of_whole hscan hscaled

def types : List IntType := [.u64, .i64, .u32, .i32]

theorem le_lowerBound_iff (ht : t ∈ types) {x : Int} (hx : t.Fits x) :
    x ≤ lowerBound t ↔ t = .i64 ∧ x = t.min := by
  obtain ⟨hmin, -⟩ := hx
  have hbound : ∀ t ∈ types, lowerBound t = if t = .i64 then t.min else t.min - 1 := by decide
  rw [hbound t ht]
  by_cases h : t = .i64
  · rw [if_pos h]
    exact ⟨fun hle => ⟨h, le_antisymm hle hmin⟩, fun hleast => hleast.2.le⟩
  · rw [if_neg h]
    exact ⟨fun hle => by omega, fun hleast => absurd hleast.1 h⟩

theorem natAbs_le (ht : t ∈ types) {x : Int} (hx : t.Fits x) : x.natAbs ≤ 2 ^ 64 := by
  have hrange : ∀ t ∈ types, -2 ^ 64 ≤ t.min ∧ t.max ≤ 2 ^ 64 := by decide
  obtain ⟨hlow, hhigh⟩ := hrange t ht
  obtain ⟨hmin, hmax⟩ := hx
  omega

theorem read_write_eq_ok_iff (unit : SizeUnit) (ht : t ∈ types) {x : Int} (hx : t.Fits x) :
    read unit t false (write unit x) = .ok x ↔
      Magnitude.Exact x.natAbs ∧ ¬(t = .i64 ∧ x = t.min) := by
  obtain ⟨y, hexact, hsame, hread⟩ := read_write unit t (natAbs_le ht hx)
  rw [hread, ← le_lowerBound_iff ht hx]
  constructor
  · intro h
    split at h
    · cases h
    split at h
    · cases h
    case isFalse hlow =>
      cases h
      exact ⟨hexact, hlow⟩
  · rintro ⟨h, hlow⟩
    rw [hsame h, if_neg (not_lt.mpr hx.2), if_neg hlow]

theorem readBytes_writeBytes_eq_ok_iff {n : Nat} (hn : n < 2 ^ 64) :
    readBytes (writeBytes n) = .ok n ↔ Magnitude.Exact n := by
  have hmax : IntType.u64.max = 2 ^ 64 - 1 := by decide
  have hlow : lowerBound .u64 = -1 := by decide
  obtain ⟨y, hexact, hsame, hread⟩ := read_write .one .u64 (x := n) (by omega)
  rw [hmax, hlow] at hread
  rw [readBytes, writeBytes, hread]
  constructor
  · intro h
    split_ifs at h with hover hunder
    · cases h
    · cases h
    · have hy : y.toNat = n := Except.ok.inj h
      have habs : y.natAbs = n := by omega
      rwa [habs] at hexact
  · intro h
    rw [hsame h, if_neg (by omega), if_neg (by omega)]
    rfl

end Size

end Foreman
