import Foreman.Proofs.Number.Reading

namespace Foreman.Size

variable {unit given : SizeUnit} {t : IntType} {text : Text} {negative roundUp : Bool}
  {num places : Nat} {x : ℚ} {n : Int}

-- There is nothing to be rounded in large sizes.
theorem Nearest.exists_intCast (h : Nearest unit given negative num places x)
    (hlarge : 2 ^ 53 ≤ |x|) : ∃ y : Int, x = y := by
  obtain ⟨m, q, -, -, hx⟩ := h
  exact Double.exists_intCast_of_large hx hlarge

theorem Denotes.exists_intCast (h : Denotes unit text x) (hlarge : 2 ^ 53 ≤ |x|) :
    ∃ y : Int, x = y := by
  cases h with
  | plain _ hx => exact hx.exists_intCast hlarge
  | ended _ hx => exact hx.exists_intCast hlarge

-- Of what passes the check, rounding down may leave the range at its lower end only.
theorem fits_floor_iff (hhigh : x < (t.max + 1 : Int)) : t.Fits ⌊x⌋ ↔ t.min ≤ x := by
  rw [IntType.Fits, Int.le_floor, and_iff_left]
  exact Int.le_of_lt_add_one (Int.floor_lt.mpr hhigh)

theorem fits_ceil_iff (hlow : lowerBound t < x) : t.Fits ⌈x⌉ ↔ x ≤ t.max := by
  have hceil : lowerBound t < ⌈x⌉ := Int.lt_ceil.mpr hlow
  exact ⟨fun hfits => Int.ceil_le.mp hfits.2,
    fun hmax => fits_of_bounds (Int.ceil_le.mpr hmax) hceil⟩

-- A type of 64 bits has no room for a fraction above its greatest number.
theorem le_max_of_wide (hdenotes : Denotes unit text x) (hwide : 2 ^ 53 ≤ t.max)
    (hhigh : x < (t.max + 1 : Int)) : x ≤ t.max := by
  by_contra hover
  have hlarge : (2 : ℚ) ^ 53 ≤ |x| := by
    have hcast : (2 : ℚ) ^ 53 ≤ t.max := by exact_mod_cast hwide
    exact hcast.trans ((not_le.mp hover).le.trans (le_abs_self x))
  obtain ⟨y, rfl⟩ := hdenotes.exists_intCast hlarge
  rw [Int.cast_lt] at hhigh
  rw [Int.cast_le] at hover
  omega

-- What is read is the size that the text stands for, made whole, if that is in the range of the
-- type. It is in the range exactly if the size was not below it where it is rounded down, and not
-- above it where it is rounded up. This is always so for the signed type of 64 bits, and for the
-- other one when rounding up.
theorem range_of_read (ht : t ∈ types) (h : read unit t roundUp text = .ok n) :
    ∃ x, Denotes unit text x ∧ (∀ y, Denotes unit text y → y = x) ∧
      (t.Fits (rounded roundUp x) ↔ if roundUp then x ≤ t.max else t.min ≤ x) ∧
      (t.Fits (rounded roundUp x) → n = rounded roundUp x) ∧
      (t = .i64 ∨ t = .u64 ∧ roundUp → t.Fits (rounded roundUp x)) := by
  obtain ⟨x, hdenotes, hlow, hhigh, rfl⟩ := read_eq_ok_iff.mp h
  have hfits : t.Fits (rounded roundUp x) ↔ if roundUp then x ≤ t.max else t.min ≤ x := by
    cases roundUp with
    | false => exact fits_floor_iff hhigh
    | true => exact fits_ceil_iff hlow
  refine ⟨x, hdenotes, fun y hy => hdenotes.unique hy, hfits, coerce_of_fits,
    fun hwide => hfits.mpr ?_⟩
  split
  case isTrue hup =>
    have hmax : 2 ^ 53 ≤ t.max := by rcases hwide with rfl | ⟨rfl, -⟩ <;> decide
    exact le_max_of_wide hdenotes hmax hhigh
  case isFalse hdown =>
    obtain rfl := hwide.resolve_right fun h => hdown h.2
    have hbound : lowerBound .i64 = IntType.i64.min := by decide
    rw [hbound] at hlow
    exact hlow.le

-- Half a unit less than nothing.
theorem range_of_half_read :
    IntType.i64 ∈ types ∧ read .one .i64 false "-.5" = .ok (-1) ∧
      ∃ x, Denotes .one "-.5" x ∧ IntType.i64.Fits (rounded false x) ∧ -1 = rounded false x := by
  have htype : IntType.i64 ∈ types := by decide
  have hread : read .one .i64 false "-.5" = .ok (-1) := by decide +kernel
  obtain ⟨x, hdenotes, -, -, hsame, hwide⟩ := range_of_read htype hread
  exact ⟨htype, hread, x, hdenotes, hwide (.inl rfl), hsame (hwide (.inl rfl))⟩

-- Half a unit below the least number of a type, which is rounded down out of the range. A number of
-- the type is made of it all the same.
theorem size_read_out_of_range :
    read .one .i32 false "-2147483648.5" = .ok (-2147483648) ∧
      ∃ x, Denotes .one "-2147483648.5" x ∧ ¬IntType.i32.Fits (rounded false x) := by
  have hspelled : Spelled "-2147483648.5" true 21474836485 1 .one :=
    ⟨"2147483648.5", rfl,
      @FixedPoint.Numeral.point "2147483648" "5" (.inl (by decide))
        (List.all_eq_true.mp (by decide)) (List.all_eq_true.mp (by decide))⟩
  have hnearest : Nearest .one .one true 21474836485 1 (-4294967297 / 2) :=
    ⟨4503599628419072, -21, by decide +kernel, nofun, by decide +kernel⟩
  have hfloor : ⌊(-4294967297 / 2 : ℚ)⌋ = -2147483649 := by
    rw [Int.floor_eq_iff]
    norm_num
  refine ⟨by decide +kernel, _, .plain hspelled hnearest, ?_⟩
  rw [rounded, if_neg Bool.false_ne_true, hfloor]
  decide

end Foreman.Size
