import Foreman.Number.Integer
import Mathlib.Data.List.TakeWhile

namespace Foreman.Integer

-- A run of digits, after a minus sign for the signed types only. Leading zeros are allowed.
inductive Numeral (t : IntType) : Text → Int → Prop where
  | plain {digits : Text} (hne : digits ≠ []) (hdigits : ∀ c ∈ digits, Text.isDigit c) :
      Numeral t digits (Decimal.value digits)
  | minus (hsigned : t.signed) {digits : Text} (hne : digits ≠ [])
      (hdigits : ∀ c ∈ digits, Text.isDigit c) :
      Numeral t (('-' : UInt8) :: digits) (-(Decimal.value digits : Int))

variable {t : IntType} {text body rest : Text} {n : Int}

theorem read_eq_ok_iff_scan : read t text false = .ok n ↔ scan t text = .ok (n, []) := by
  unfold read
  rw [Bool.false_and, if_neg Bool.false_ne_true]
  cases scan t text with
  | error why => exact iff_of_false nofun nofun
  | ok scanned =>
    obtain ⟨m, rest⟩ := scanned
    cases rest with
    | nil => simp
    | cons c rest => exact iff_of_false nofun nofun

theorem scan_eq {negative : Bool}
    (hsign : (t.signed && decide (text.head? = some ('-' : UInt8))) = negative)
    (hbody : (if negative then text.tail else text) = body)
    (hn : (if negative then -(Decimal.value (body.takeWhile Text.isDigit) : Int)
      else Decimal.value (body.takeWhile Text.isDigit)) = n) :
    scan t text =
      if body.takeWhile Text.isDigit = [] then .error .malformed
      else if t.Fits n then .ok (n, body.dropWhile Text.isDigit) else .error .outOfRange := by
  unfold scan
  simp only [Option.bind_eq_bind, Option.bind_some, Option.pure_def, hsign, hbody, hn,
    List.isEmpty_iff]

theorem scan_eq_ok_iff {negative : Bool}
    (hsign : (t.signed && decide (text.head? = some ('-' : UInt8))) = negative)
    (hbody : (if negative then text.tail else text) = body) :
    scan t text = .ok (n, rest) ↔ body.takeWhile Text.isDigit ≠ [] ∧
      (if negative then -(Decimal.value (body.takeWhile Text.isDigit) : Int)
        else Decimal.value (body.takeWhile Text.isDigit)) = n ∧
      t.Fits n ∧ body.dropWhile Text.isDigit = rest := by
  rw [scan_eq hsign hbody rfl]
  generalize (if negative then -(Decimal.value (body.takeWhile Text.isDigit) : Int)
    else Decimal.value (body.takeWhile Text.isDigit)) = m
  split_ifs with hempty hfits
  · exact iff_of_false nofun fun h => h.1 hempty
  · rw [Except.ok.injEq, Prod.mk.injEq]
    constructor
    · rintro ⟨rfl, hrest⟩
      exact ⟨hempty, rfl, hfits, hrest⟩
    · rintro ⟨-, hm, -, hrest⟩
      exact ⟨hm, hrest⟩
  · refine iff_of_false nofun ?_
    rintro ⟨-, rfl, h, -⟩
    exact hfits h

theorem read_eq_ok_iff_of_sign {negative : Bool}
    (hsign : (t.signed && decide (text.head? = some ('-' : UInt8))) = negative)
    (hbody : (if negative then text.tail else text) = body) :
    read t text false = .ok n ↔ body ≠ [] ∧ (∀ c ∈ body, Text.isDigit c) ∧
      (if negative then -(Decimal.value body : Int) else Decimal.value body) = n ∧ t.Fits n := by
  rw [read_eq_ok_iff_scan, scan_eq_ok_iff hsign hbody, List.dropWhile_eq_nil_iff]
  constructor
  · rintro ⟨hne, hn, hfits, hall⟩
    rw [List.takeWhile_eq_self_iff.mpr hall] at hne hn
    exact ⟨hne, hall, hn, hfits⟩
  · rintro ⟨hne, hall, hn, hfits⟩
    rw [List.takeWhile_eq_self_iff.mpr hall]
    exact ⟨hne, hn, hfits, hall⟩

theorem read_eq_ok_iff : read t text false = .ok n ↔ Numeral t text n ∧ t.Fits n := by
  cases hsign : t.signed && decide (text.head? = some ('-' : UInt8)) with
  | true =>
    obtain ⟨hsigned, hhead⟩ := Bool.and_eq_true_iff.mp hsign
    obtain ⟨body, rfl⟩ := List.head?_eq_some_iff.mp (of_decide_eq_true hhead)
    rw [read_eq_ok_iff_of_sign hsign rfl]
    constructor
    · rintro ⟨hne, hdigits, rfl, hfits⟩
      exact ⟨.minus hsigned hne hdigits, hfits⟩
    · rintro ⟨hnumeral, hfits⟩
      cases hnumeral with
      | plain _ hdigits => exact absurd (hdigits _ List.mem_cons_self) (by decide)
      | minus _ hne hdigits => exact ⟨hne, hdigits, rfl, hfits⟩
  | false =>
    rw [read_eq_ok_iff_of_sign hsign rfl]
    constructor
    · rintro ⟨hne, hdigits, rfl, hfits⟩
      exact ⟨.plain hne hdigits, hfits⟩
    · rintro ⟨hnumeral, hfits⟩
      cases hnumeral with
      | plain hne hdigits => exact ⟨hne, hdigits, rfl, hfits⟩
      | minus hsigned hne hdigits =>
        rw [hsigned] at hsign
        cases hsign

theorem read_unsigned_eq_ok_iff (ht : t.signed = false) :
    read t text false = .ok n ↔ text ≠ [] ∧ (∀ c ∈ text, Text.isDigit c) ∧
      (Decimal.value text : Int) = n ∧ t.Fits n := by
  rw [read_eq_ok_iff]
  constructor
  · rintro ⟨hnumeral, hfits⟩
    cases hnumeral with
    | plain hne hdigits => exact ⟨hne, hdigits, rfl, hfits⟩
    | minus hsigned =>
      rw [ht] at hsigned
      cases hsigned
  · rintro ⟨hne, hdigits, rfl, hfits⟩
    exact ⟨.plain hne hdigits, hfits⟩

end Foreman.Integer
