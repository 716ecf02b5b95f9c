import Foreman.Proofs.Number.Size

namespace Foreman

namespace FixedPoint

variable {numeral : Text} {num places : Nat}

theorem getLast?_numeral (h : Numeral numeral num places) :
    ∃ c, numeral.getLast? = some c ∧ (Text.isDigit c ∨ c = '.') := by
  have hdigit : ∀ {digits : Text}, digits ≠ [] → (∀ c ∈ digits, Text.isDigit c) →
      ∃ c, digits.getLast? = some c ∧ (Text.isDigit c ∨ c = '.') := fun hne hdigits =>
    ⟨_, List.getLast?_eq_some_getLast hne, .inl (hdigits _ (List.getLast_mem hne))⟩
  cases h with
  | whole hne hdigits => exact hdigit hne hdigits
  | @point whole fraction hne hwhole hfraction =>
    by_cases hempty : fraction = []
    · subst hempty
      exact ⟨_, List.getLast?_concat, .inr rfl⟩
    · obtain ⟨c, hlast, hc⟩ := hdigit hempty hfraction
      refine ⟨c, ?_, hc⟩
      rw [List.append_cons, List.getLast?_append_of_ne_nil _ hempty, hlast]

end FixedPoint

-- What may follow a number: a letter, nothing, or a NUL byte, which is taken for nothing.
theorem SizeUnit.ofByte?_head?_iff {rest : Text} {given : SizeUnit} :
    rest.length ≤ 1 ∧ ofByte? (rest.head?.getD 0) = some given ↔
      rest = given.letter?.toList ∨ rest = [0] ∧ given = .one := by
  constructor
  · rintro ⟨hlength, hgiven⟩
    match rest, hlength with
    | [], _ =>
      cases hgiven
      exact .inl rfl
    | [c], _ =>
      rw [List.head?_cons, Option.getD_some] at hgiven
      unfold ofByte? at hgiven
      split_ifs at hgiven with hc hc hc hc hc hc hc <;> cases hgiven <;> subst hc
      · exact .inr ⟨rfl, rfl⟩
      all_goals exact .inl rfl
  · rintro (rfl | ⟨rfl, rfl⟩)
    · exact ⟨given.length_letter?_le, given.ofByte?_letter?⟩
    · exact ⟨Nat.le_refl 1, rfl⟩

namespace Size

open FixedPoint (Numeral sign)

variable {unit given : SizeUnit} {t : IntType} {text body digits : Text} {negative roundUp : Bool}
  {num places : Nat} {x : ℚ} {n : Int}

-- A size as it is spelled: a sign or none, a numeral, and the letter of a unit or none.
def Spelled (text : Text) (negative : Bool) (num places : Nat) (given : SizeUnit) : Prop :=
  ∃ numeral, text = sign negative ++ (numeral ++ given.letter?.toList) ∧
    Numeral numeral num places

def IsSize (text : Text) : Prop :=
  ∃ negative num places given, Spelled text negative num places given

def IsNumber (text : Text) : Prop :=
  ∃ negative num places, Spelled text negative num places .one

-- The double nearest to a number, scaled from the unit that is given to the unit that is asked for.
-- There is none if that would be infinite, or nothing where there is something.
def Nearest (unit given : SizeUnit) (negative : Bool) (num places : Nat) (x : ℚ) : Prop :=
  ∃ m q, Magnitude.ofRatio num (10 ^ places) = .finite m q ∧ (m = 0 → num = 0) ∧
    ((Double.number negative (.finite m q)).scaleTwo
      (10 * ((given.rank : Int) - unit.rank))).value? = some x

-- What a text stands for in a unit. A NUL byte that ends a number is nothing.
inductive Denotes (unit : SizeUnit) : Text → ℚ → Prop where
  | plain {text : Text} {negative : Bool} {num places : Nat} {given : SizeUnit} {x : ℚ}
      (htext : Spelled text negative num places given)
      (hx : Nearest unit given negative num places x) : Denotes unit text x
  | ended {text : Text} {negative : Bool} {num places : Nat} {x : ℚ}
      (htext : Spelled text negative num places .one)
      (hx : Nearest unit .one negative num places x) : Denotes unit (text ++ [0]) x

theorem getLast?_spelled (h : Spelled text negative num places given) :
    ∃ c, text.getLast? = some c ∧ c ≠ 0 ∧
      (given = .one ↔ Text.isDigit c ∨ c = ('.' : UInt8)) := by
  obtain ⟨numeral, rfl, hnumeral⟩ := h
  obtain ⟨c, hlast, hc⟩ := FixedPoint.getLast?_numeral hnumeral
  cases given with
  | one =>
    refine ⟨c, ?_, ?_, iff_of_true rfl hc⟩
    · rw [SizeUnit.letter?, Option.toList_none, List.append_nil, List.getLast?_append, hlast,
        Option.some_or]
    · rintro rfl
      exact absurd hc (by decide)
  | kilo | mega | giga | tera | peta | exa =>
    rw [← List.append_assoc]
    exact ⟨_, List.getLast?_concat, by decide, by decide⟩

theorem IsNumber.isSize (h : IsNumber text) : IsSize text :=
  let ⟨negative, num, places, hspelled⟩ := h
  ⟨negative, num, places, .one, hspelled⟩

theorem IsNumber.given_eq (h : IsNumber text) (hspelled : Spelled text negative num places given) :
    given = .one := by
  obtain ⟨_, _, _, hnumber⟩ := h
  obtain ⟨c, hlast, -, hgiven⟩ := getLast?_spelled hspelled
  obtain ⟨c', hlast', -, hnumber⟩ := getLast?_spelled hnumber
  obtain rfl := Option.some.inj (hlast.symm.trans hlast')
  exact hgiven.mpr (hnumber.mp rfl)

theorem not_isSize_of_ended : ¬IsSize (body ++ [0]) := by
  rintro ⟨negative, num, places, given, h⟩
  obtain ⟨c, hlast, hc, -⟩ := getLast?_spelled h
  rw [List.getLast?_concat] at hlast
  exact hc (Option.some.inj hlast).symm

theorem denotes_iff :
    Denotes unit text x ↔ ∃ number rest given, FixedPoint.scan text = some (number, rest) ∧
      (rest.length ≤ 1 ∧ SizeUnit.ofByte? (rest.head?.getD 0) = some given) ∧
      (number.scaleTwo (10 * ((given.rank : Int) - unit.rank))).value? = some x := by
  constructor
  · intro h
    cases h with
    | @plain _ negative _ _ given _ hspelled hx =>
      obtain ⟨numeral, rfl, hnumeral⟩ := hspelled
      obtain ⟨m, q, hround, hm, hx⟩ := hx
      exact ⟨_, _, given, FixedPoint.scan_of_numeral negative hnumeral given.endsDigits_letter?
        hround hm, SizeUnit.ofByte?_head?_iff.mpr (.inl rfl), hx⟩
    | @ended _ negative _ _ _ hspelled hx =>
      obtain ⟨numeral, rfl, hnumeral⟩ := hspelled
      obtain ⟨m, q, hround, hm, hx⟩ := hx
      have hends : FixedPoint.EndsDigits [0] := fun c hc => by
        cases hc
        decide
      have hscan := FixedPoint.scan_of_numeral negative hnumeral hends hround hm
      rw [SizeUnit.letter?, Option.toList_none, List.append_nil, List.append_assoc]
      exact ⟨_, _, .one, hscan, SizeUnit.ofByte?_head?_iff.mpr (.inr ⟨rfl, rfl⟩), hx⟩
  · rintro ⟨number, rest, given, hscan, hgiven, hx⟩
    obtain ⟨negative, m, q, rfl⟩ := Double.exists_of_value?_scaleTwo hx
    obtain ⟨numeral, num, places, rfl, hnumeral, hround, hm⟩ := FixedPoint.numeral_of_scan hscan
    rcases SizeUnit.ofByte?_head?_iff.mp hgiven with rfl | ⟨rfl, rfl⟩
    · exact .plain ⟨numeral, rfl, hnumeral⟩ ⟨m, q, hround, hm, hx⟩
    · have hended := Denotes.ended ⟨numeral, rfl, hnumeral⟩ ⟨m, q, hround, hm, hx⟩
      rwa [SizeUnit.letter?, Option.toList_none, List.append_nil, List.append_assoc] at hended

theorem Denotes.unique {y : ℚ} (hx : Denotes unit text x) (hy : Denotes unit text y) : y = x := by
  obtain ⟨number, rest, given, hscan, ⟨-, hgiven⟩, hx⟩ := denotes_iff.mp hx
  obtain ⟨number', rest', given', hscan', ⟨-, hgiven'⟩, hy⟩ := denotes_iff.mp hy
  obtain ⟨rfl, rfl⟩ := Prod.mk.inj (Option.some.inj (hscan.symm.trans hscan'))
  obtain rfl := Option.some.inj (hgiven.symm.trans hgiven')
  exact Option.some.inj (hy.symm.trans hx)

theorem read_of_denotes (roundUp : Bool) (h : Denotes unit text x) :
    read unit t roundUp text =
      if (t.max + 1 : Int) ≤ x then .error .overflow
      else if x ≤ lowerBound t then .error .underflow else .ok (coerce t (rounded roundUp x)) := by
  obtain ⟨number, rest, given, hscan, ⟨hrest, hgiven⟩, hx⟩ := denotes_iff.mp h
  exact read_of_value roundUp hscan hrest hgiven hx

theorem denotes_of_read (h : read unit t roundUp text = .ok n) : ∃ x, Denotes unit text x := by
  unfold read at h
  cases hscan : FixedPoint.scan text with
  | none =>
    rw [hscan] at h
    cases h
  | some scanned =>
    obtain ⟨number, rest⟩ := scanned
    rw [hscan] at h
    dsimp only at h
    split at h
    case isTrue => cases h
    case isFalse hrest =>
      cases hgiven : SizeUnit.ofByte? (rest.head?.getD 0) with
      | none =>
        rw [hgiven] at h
        cases h
      | some given =>
        rw [hgiven] at h
        dsimp only at h
        split at h
        case isTrue => cases h
        case isFalse =>
          split at h
          case isTrue => cases h
          case isFalse =>
            split at h
            case h_1 => cases h
            case h_2 whole hwhole =>
              obtain ⟨x, hx⟩ := Double.exists_value?_of_whole hwhole
              exact ⟨x, denotes_iff.mpr
                ⟨number, rest, given, hscan, ⟨Nat.not_lt.mp hrest, hgiven⟩, hx⟩⟩

theorem read_eq_ok_iff :
    read unit t roundUp text = .ok n ↔
      ∃ x, Denotes unit text x ∧ lowerBound t < x ∧ x < (t.max + 1 : Int) ∧
        n = coerce t (rounded roundUp x) := by
  constructor
  · intro h
    obtain ⟨x, hx⟩ := denotes_of_read h
    rw [read_of_denotes roundUp hx] at h
    split_ifs at h with hover hunder
    exact ⟨x, hx, not_le.mp hunder, not_le.mp hover, (Except.ok.inj h).symm⟩
  · rintro ⟨x, hx, hunder, hover, rfl⟩
    rw [read_of_denotes roundUp hx, if_neg (not_le.mpr hover), if_neg (not_le.mpr hunder)]

-- A NUL byte behind a number is not seen, and nothing else may be followed by one.
theorem read_ended_eq_ok_iff :
    read unit t roundUp (body ++ [0]) = .ok n ↔
      IsNumber body ∧ read unit t roundUp body = .ok n := by
  rw [read_eq_ok_iff, read_eq_ok_iff]
  constructor
  · rintro ⟨x, hx, hbounds⟩
    generalize htext : body ++ [0] = text at hx
    cases hx with
    | plain hspelled _ => exact absurd ⟨_, _, _, _, htext ▸ hspelled⟩ not_isSize_of_ended
    | ended hspelled hx =>
      obtain rfl := List.append_cancel_right htext
      exact ⟨⟨_, _, _, hspelled⟩, x, .plain hspelled hx, hbounds⟩
  · rintro ⟨hnumber, x, hx, hbounds⟩
    cases hx with
    | plain hspelled hx =>
      obtain rfl := hnumber.given_eq hspelled
      exact ⟨x, .ended hspelled hx, hbounds⟩
    | ended _ _ => exact absurd hnumber.isSize not_isSize_of_ended

-- What is read is spelled as a size, and everything else is turned down, as long as no NUL byte
-- ends it: behind a number that byte is not seen. Of the texts that stand for a number, those
-- are read that are within the bounds.
theorem texts_read (unit : SizeUnit) (t : IntType) (roundUp : Bool) (text : Text) :
    (text.getLast? ≠ some 0 → IsSize text ∨ ∃ why, read unit t roundUp text = .error why) ∧
      (∀ body n, text = body ++ [0] → (read unit t roundUp text = .ok n ↔
        IsNumber body ∧ read unit t roundUp body = .ok n)) ∧
      ((∃ n, read unit t roundUp text = .ok n) ↔
        ∃ x, Denotes unit text x ∧ lowerBound t < x ∧ x < (t.max + 1 : Int)) := by
  refine ⟨fun hlast => ?_, ?_, ?_⟩
  · cases hread : read unit t roundUp text with
    | error why => exact .inr ⟨why, rfl⟩
    | ok n =>
      obtain ⟨x, hx⟩ := denotes_of_read hread
      cases hx with
      | plain hspelled _ => exact .inl ⟨_, _, _, _, hspelled⟩
      | ended _ _ => exact absurd List.getLast?_concat hlast
  · rintro body n rfl
    exact read_ended_eq_ok_iff
  · constructor
    · rintro ⟨n, hread⟩
      obtain ⟨x, hx, hlow, hhigh, -⟩ := read_eq_ok_iff.mp hread
      exact ⟨x, hx, hlow, hhigh⟩
    · rintro ⟨x, hx, hlow, hhigh⟩
      exact ⟨_, read_eq_ok_iff.mpr ⟨x, hx, hlow, hhigh, rfl⟩⟩

-- Half a kibibyte, and half a byte with a NUL byte behind it.
theorem texts_read_of_half :
    (Text.ofString ".5k").getLast? ≠ some 0 ∧ read .one .u64 false ".5k" = .ok 512 ∧
      IsSize ".5k" ∧ read .one .u64 false (Text.ofString ".5" ++ [0]) = .ok 0 := by
  have hlast : (Text.ofString ".5k").getLast? ≠ some 0 := by decide
  have hread : read .one .u64 false ".5k" = .ok 512 := by decide +kernel
  obtain ⟨hsize, -, -⟩ := texts_read .one .u64 false ".5k"
  obtain ⟨-, hended, -⟩ := texts_read .one .u64 false (Text.ofString ".5" ++ [0])
  have hnumber : IsNumber ".5" :=
    ⟨false, _, _, ".5", rfl,
      @Numeral.point [] "5" (.inr (by decide)) nofun (List.all_eq_true.mp (by decide))⟩
  refine ⟨hlast, hread, (hsize hlast).resolve_right ?_,
    (hended ".5" 0 rfl).mpr ⟨hnumber, by decide +kernel⟩⟩
  rintro ⟨why, hwhy⟩
  rw [hread] at hwhy
  cases hwhy

-- A number and a NUL byte, which is no letter, are read as the number.
theorem number_read_to_nul :
    ¬IsSize (Text.ofString "1" ++ [0]) ∧
      read .one .u64 false (Text.ofString "1" ++ [0]) = .ok 1 :=
  ⟨not_isSize_of_ended, by decide +kernel⟩

theorem nearest_of_whole (unit given : SizeUnit) (hsmall : num < 2 ^ 53) :
    Nearest unit given false num 0 (num * 1024 ^ ((given.rank : Int) - unit.rank)) := by
  obtain ⟨m, q, y, hround, hy, -, -, hsame, hm⟩ :=
    Magnitude.ofRatio_one (hsmall.trans (by norm_num))
  refine ⟨m, q, hround, fun hzero => not_not.mp fun hnum => hm hnum hzero, ?_⟩
  have hvalue : (Double.number false (.finite m q)).value? = some (num : ℚ) := by
    rw [Double.value?, if_neg Bool.false_ne_true, hy, hsame (Magnitude.exact_of_lt hsmall)]
  have hgiven := given.rank_le
  have hunit := unit.rank_le
  have hpower : (1024 : ℚ) ^ ((given.rank : Int) - unit.rank) =
      2 ^ (10 * ((given.rank : Int) - unit.rank)) := by
    rw [zpow_mul]
    norm_num
  rw [hpower]
  have hscaled : |(num : ℚ)| * 2 ^ (10 * ((given.rank : Int) - unit.rank)) =
      num * 2 ^ (10 * ((given.rank : Int) - unit.rank)) := by
    rw [Nat.abs_cast]
  exact Double.value?_scaleTwo hvalue hsmall (by omega) (by omega) hscaled

-- A run of digits of at most 53 bits, with a letter or without, is read as the number that it
-- stands for, in the unit that is asked for and without its fraction. It is too large exactly if
-- that number is.
theorem sizes_of_digits (unit given : SizeUnit) (ht : t ∈ types) (hne : digits ≠ [])
    (hdigits : ∀ c ∈ digits, Text.isDigit c) (hsmall : Decimal.value digits < 2 ^ 53) :
    let size : ℚ := Decimal.value digits * 1024 ^ ((given.rank : Int) - unit.rank)
    read unit t false (digits ++ given.letter?.toList) =
        (if ⌊size⌋ ≤ t.max then .ok ⌊size⌋ else .error .overflow) ∧
      SizeError.overflow.message = "overflow" := by
  intro size
  have hdenotes : Denotes unit (digits ++ given.letter?.toList) size :=
    .plain ⟨digits, rfl, .whole hne hdigits⟩ (nearest_of_whole unit given hsmall)
  have hbounds : ∀ t ∈ types, lowerBound t < 0 ∧ t.min ≤ 0 := by decide
  obtain ⟨hlow, hmin⟩ := hbounds t ht
  have hsize : 0 ≤ size := by positivity
  have hunder : ¬size ≤ lowerBound t := by
    have hcast : (lowerBound t : ℚ) < 0 := by exact_mod_cast hlow
    exact not_le.mpr (hcast.trans_le hsize)
  refine ⟨?_, rfl⟩
  rw [read_of_denotes false hdenotes, if_neg hunder]
  by_cases hover : ((t.max + 1 : Int) : ℚ) ≤ size
  · rw [if_pos hover, if_neg (not_le.mpr (Int.le_floor.mpr hover))]
  · have hmax : ⌊size⌋ ≤ t.max := Int.le_of_lt_add_one (Int.floor_lt.mpr (not_le.mp hover))
    rw [if_neg hover, if_pos hmax]
    exact congrArg _ (coerce_of_fits ⟨hmin.trans (Int.floor_nonneg.mpr hsize), hmax⟩)

-- A number with leading zeros of which a fraction is dropped, and one that is just too large.
theorem sizes_of_digits_in_kibibytes :
    (∀ c ∈ Text.ofString "01536", Text.isDigit c) ∧
      Decimal.value (Text.ofString "01536") < 2 ^ 53 ∧
      read .mega .u32 false "01536k" = .ok 1 ∧
      read .one .u32 false "4194304k" = .error .overflow := by
  have htype : IntType.u32 ∈ types := by decide
  have hdigits : ∀ c ∈ Text.ofString "01536", Text.isDigit c := List.all_eq_true.mp (by decide)
  have hsmall : Decimal.value (Text.ofString "01536") < 2 ^ 53 := by decide
  have hmegas : ⌊((Decimal.value (Text.ofString "01536") : Nat) : ℚ) *
      1024 ^ ((SizeUnit.kilo.rank : Int) - SizeUnit.mega.rank)⌋ = 1 := by
    have hvalue : Decimal.value (Text.ofString "01536") = 1536 := by decide
    rw [hvalue, Int.floor_eq_iff]
    norm_num [SizeUnit.rank]
  have hbytes : ⌊((Decimal.value (Text.ofString "4194304") : Nat) : ℚ) *
      1024 ^ ((SizeUnit.kilo.rank : Int) - SizeUnit.one.rank)⌋ = 2 ^ 32 := by
    have hvalue : Decimal.value (Text.ofString "4194304") = 4194304 := by decide
    rw [hvalue, Int.floor_eq_iff]
    norm_num [SizeUnit.rank]
  obtain ⟨hread, -⟩ := sizes_of_digits .mega .kilo htype (by decide) hdigits hsmall
  have hdigits' : ∀ c ∈ Text.ofString "4194304", Text.isDigit c :=
    List.all_eq_true.mp (by decide)
  obtain ⟨hlarge, -⟩ := sizes_of_digits .one .kilo htype (by decide) hdigits' (by decide)
  rw [hmegas] at hread
  rw [hbytes] at hlarge
  exact ⟨hdigits, hsmall, hread, hlarge⟩

end Size

end Foreman
