import Foreman.Number.FixedPoint
import Foreman.Proofs.Number.Decimal
import Foreman.Proofs.Number.Double
import Mathlib.Data.List.TakeWhile

namespace Foreman.FixedPoint

variable {text body numeral digits whole fraction rest : Text} {negative : Bool}
  {num places m : Nat} {q : Int}

-- Digits, at least one, with at most one point in front of them, among them or behind them. They
-- stand for `num` with the point `places` digits from its end.
inductive Numeral : Text → (num places : Nat) → Prop where
  | whole {digits : Text} (hne : digits ≠ []) (hdigits : ∀ c ∈ digits, Text.isDigit c) :
      Numeral digits (Decimal.value digits) 0
  | point {whole fraction : Text} (hne : whole ≠ [] ∨ fraction ≠ [])
      (hwhole : ∀ c ∈ whole, Text.isDigit c) (hfraction : ∀ c ∈ fraction, Text.isDigit c) :
      Numeral (whole ++ ('.' : UInt8) :: fraction) (Decimal.value (whole ++ fraction))
        fraction.length

def sign (negative : Bool) : Text :=
  if negative then [('-' : UInt8)] else []

-- Nothing in the text goes on with a numeral.
def EndsDigits (rest : Text) : Prop := ∀ c, rest.head? = some c → ¬Text.isDigit c ∧ c ≠ '.'

theorem splitDigits_whole (hdigits : ∀ c ∈ digits, Text.isDigit c) (hrest : EndsDigits rest) :
    splitDigits (digits ++ rest) = (digits, [], rest) := by
  obtain ⟨htake, hdrop⟩ := Decimal.takeWhile_digits hdigits fun c hc => (hrest c hc).1
  have hpoint : rest.head? ≠ some ('.' : UInt8) := fun hhead => (hrest _ hhead).2 rfl
  unfold splitDigits
  simp only [Option.bind_eq_bind, Option.bind_some, Option.pure_def]
  rw [htake, hdrop, if_neg hpoint]

theorem splitDigits_point (hwhole : ∀ c ∈ whole, Text.isDigit c)
    (hfraction : ∀ c ∈ fraction, Text.isDigit c) (hrest : EndsDigits rest) :
    splitDigits (whole ++ ('.' : UInt8) :: (fraction ++ rest)) = (whole, fraction, rest) := by
  have hpoint : ∀ c, (('.' : UInt8) :: (fraction ++ rest)).head? = some c → ¬Text.isDigit c := by
    rintro c ⟨⟩
    decide
  obtain ⟨htake, hdrop⟩ := Decimal.takeWhile_digits hwhole hpoint
  obtain ⟨htake', hdrop'⟩ := Decimal.takeWhile_digits hfraction fun c hc => (hrest c hc).1
  unfold splitDigits
  simp only [Option.bind_eq_bind, Option.bind_some, Option.pure_def]
  rw [htake, hdrop, List.head?_cons, if_pos rfl, List.tail_cons, htake', hdrop']

theorem splitDigits_of_numeral (h : Numeral numeral num places) (hrest : EndsDigits rest) :
    ∃ whole fraction, splitDigits (numeral ++ rest) = (whole, fraction, rest) ∧
      (whole ≠ [] ∨ fraction ≠ []) ∧ Decimal.value (whole ++ fraction) = num ∧
      fraction.length = places := by
  cases h with
  | whole hne hdigits =>
    exact ⟨numeral, [], splitDigits_whole hdigits hrest, .inl hne, by rw [List.append_nil], rfl⟩
  | @point whole fraction hne hwhole hfraction =>
    refine ⟨whole, fraction, ?_, hne, rfl, rfl⟩
    rw [List.append_assoc, List.cons_append]
    exact splitDigits_point hwhole hfraction hrest

theorem numeral_of_splitDigits (h : splitDigits body = (whole, fraction, rest))
    (hne : whole ≠ [] ∨ fraction ≠ []) :
    ∃ numeral, body = numeral ++ rest ∧
      Numeral numeral (Decimal.value (whole ++ fraction)) fraction.length := by
  have hdigits : ∀ {t : Text}, ∀ c ∈ t.takeWhile Text.isDigit, Text.isDigit c := fun c hc =>
    List.mem_takeWhile_imp hc
  have hbody := List.takeWhile_append_dropWhile (p := Text.isDigit) (l := body)
  unfold splitDigits at h
  simp only [Option.bind_eq_bind, Option.bind_some, Option.pure_def] at h
  split at h
  case isTrue hpoint =>
    obtain ⟨tail, htail⟩ := List.head?_eq_some_iff.mp hpoint
    rw [htail, List.tail_cons] at h
    cases h
    refine ⟨_, ?_, .point hne hdigits hdigits⟩
    rw [List.append_assoc, List.cons_append, List.takeWhile_append_dropWhile, ← htail, hbody]
  case isFalse =>
    cases h
    refine ⟨_, hbody.symm, ?_⟩
    rw [List.append_nil]
    exact .whole (hne.resolve_right fun h => h rfl) hdigits

theorem head?_numeral_ne (h : Numeral numeral num places) (rest : Text) :
    (numeral ++ rest).head? ≠ some ('-' : UInt8) := by
  have hdigit : ∀ {digits : Text} (rest : Text), digits ≠ [] → (∀ c ∈ digits, Text.isDigit c) →
      (digits ++ rest).head? ≠ some ('-' : UInt8) := by
    intro digits rest hne hdigits hhead
    rw [List.head?_append_of_ne_nil _ hne] at hhead
    exact absurd (hdigits _ (List.mem_of_mem_head? hhead)) (by decide)
  cases h with
  | whole hne hdigits => exact hdigit rest hne hdigits
  | @point whole fraction hne hwhole hfraction =>
    rw [List.append_assoc]
    by_cases hempty : whole = []
    · subst hempty
      exact fun hhead => absurd (Option.some.inj hhead) (by decide)
    · exact hdigit _ hempty hwhole

theorem scan_eq (hsign : decide (text.head? = some ('-' : UInt8)) = negative)
    (hbody : (if negative then text.tail else text) = body)
    (hsplit : splitDigits body = (whole, fraction, rest)) :
    scan text =
      if whole = [] ∧ fraction = [] then scanWord negative body
      else
        match Magnitude.ofRatio (Decimal.value (whole ++ fraction)) (10 ^ fraction.length) with
        | .infinite => none
        | .finite m q =>
          if m = 0 ∧ Decimal.value (whole ++ fraction) ≠ 0 then none
          else some (.number negative (.finite m q), rest) := by
  have hempty : (whole.isEmpty && fraction.isEmpty) = true ↔ whole = [] ∧ fraction = [] := by
    rw [Bool.and_eq_true, List.isEmpty_iff, List.isEmpty_iff]
  subst hsign
  unfold scan
  simp only [Option.bind_eq_bind, Option.bind_some, Option.pure_def] at hbody ⊢
  rw [hbody, hsplit]
  refine if_congr hempty rfl ?_
  rw [Nat.pow_eq]
  cases Magnitude.ofRatio (Decimal.value (whole ++ fraction)) (10 ^ fraction.length) with
  | infinite => rfl
  | finite m q =>
    refine if_congr ?_ rfl rfl
    rw [Bool.and_eq_true, decide_eq_true_iff, bne_iff_ne]

theorem scan_of_numeral (negative : Bool) (h : Numeral numeral num places)
    (hrest : EndsDigits rest) (hround : Magnitude.ofRatio num (10 ^ places) = .finite m q)
    (hm : m = 0 → num = 0) :
    scan (sign negative ++ (numeral ++ rest)) = some (.number negative (.finite m q), rest) := by
  obtain ⟨whole, fraction, hsplit, hne, rfl, rfl⟩ := splitDigits_of_numeral h hrest
  have hsign : decide ((sign negative ++ (numeral ++ rest)).head? = some ('-' : UInt8)) =
      negative := by
    cases negative with
    | false => exact decide_eq_false (head?_numeral_ne h rest)
    | true => exact decide_eq_true rfl
  have hbody : (if negative then (sign negative ++ (numeral ++ rest)).tail
      else sign negative ++ (numeral ++ rest)) = numeral ++ rest := by
    cases negative <;> rfl
  have hdigit : ¬(whole = [] ∧ fraction = []) := fun h => hne.elim (· h.1) (· h.2)
  rw [scan_eq hsign hbody hsplit, if_neg hdigit, hround]
  dsimp only
  rw [if_neg fun h => h.2 (hm h.1)]

theorem scanWord_ne (negative negative' : Bool) (text rest : Text) :
    scanWord negative text ≠ some (.number negative' (.finite m q), rest) := by
  unfold scanWord
  split_ifs <;> nofun

theorem numeral_of_scan (h : scan text = some (.number negative (.finite m q), rest)) :
    ∃ numeral num places, text = sign negative ++ (numeral ++ rest) ∧
      Numeral numeral num places ∧ Magnitude.ofRatio num (10 ^ places) = .finite m q ∧
        (m = 0 → num = 0) := by
  obtain ⟨signed, body, hsign, hbody, htext⟩ : ∃ signed body,
      decide (text.head? = some ('-' : UInt8)) = signed ∧
        (if signed then text.tail else text) = body ∧ text = sign signed ++ body := by
    by_cases hhead : text.head? = some ('-' : UInt8)
    · obtain ⟨tail, rfl⟩ := List.head?_eq_some_iff.mp hhead
      exact ⟨true, tail, decide_eq_true rfl, rfl, rfl⟩
    · exact ⟨false, text, decide_eq_false hhead, rfl, rfl⟩
  obtain ⟨⟨whole, fraction, after⟩, hsplit⟩ : ∃ parts, splitDigits body = parts := ⟨_, rfl⟩
  rw [scan_eq hsign hbody hsplit] at h
  split at h
  case isTrue => exact absurd h (scanWord_ne signed negative body rest)
  case isFalse hdigit =>
    split at h
    case h_1 => cases h
    case h_2 hround =>
      split at h
      case isTrue => cases h
      case isFalse hkept =>
        cases h
        obtain ⟨numeral, rfl, hnumeral⟩ := numeral_of_splitDigits hsplit (by tauto)
        exact ⟨numeral, _, _, htext, hnumeral, hround, by tauto⟩

theorem scan_digits (negative : Bool) (hne : digits ≠ []) (hdigits : ∀ c ∈ digits, Text.isDigit c)
    (hvalue : Decimal.value digits < 2 ^ 128) (hrest : EndsDigits rest) :
    ∃ number, ∃ y : Nat, scan (sign negative ++ (digits ++ rest)) = some (number, rest) ∧
      number.value? = some (if negative then -(y : ℚ) else y) ∧ Magnitude.Exact y ∧
      y ≤ 2 * Decimal.value digits ∧
      (Magnitude.Exact (Decimal.value digits) → y = Decimal.value digits) := by
  obtain ⟨m, q, y, hround, hy, hexact, hle, hsame, hm⟩ := Magnitude.ofRatio_one hvalue
  refine ⟨.number negative (.finite m q), y, ?_, by rw [Double.value?, hy], hexact, hle, hsame⟩
  exact scan_of_numeral negative (.whole hne hdigits) hrest hround fun hzero =>
    not_not.mp fun hvalue => hm hvalue hzero

end Foreman.FixedPoint
