import Foreman.Proofs.Number.Decimal
import Foreman.Proofs.Number.Integer

namespace Foreman.Integer

variable {t : IntType} {text front rest : Text} {n : Int} {flag : Bool}
  {result : Except Text Int}

structure Leading (t : IntType) (text front : Text) (n : Int) : Prop where
  starts : front <+: text
  numeral : Numeral t front n
  longest : ∀ {other : Text} {m : Int}, other <+: text → Numeral t other m →
    other.length ≤ front.length

-- What reading comes to: a number, or the message of what is wrong. A flag is 0 or 1.
inductive Outcome (t : IntType) (flag : Bool) (text : Text) : Except Text Int → Prop where
  | number {n : Int} (hnumeral : Numeral t text n) (hfits : t.Fits n) (hflag : flag → n ≤ 1) :
      Outcome t flag text (.ok n)
  | malformed (h : ∀ front n, front <+: text → ¬Numeral t front n) :
      Outcome t flag text (.error "Invalid argument")
  | outOfRange {front : Text} {n : Int} (h : Leading t text front n) (hfits : ¬t.Fits n) :
      Outcome t flag text (.error "Numerical result out of range")
  | notAFlag {front : Text} {n : Int} (h : Leading t text front n) (hfits : t.Fits n)
      (hflag : flag) (hn : 1 < n) : Outcome t flag text (.error "bool value must be 0 or 1")
  | trailing {front : Text} {n : Int} (h : Leading t text front n) (hfits : t.Fits n)
      (hflag : flag → n ≤ 1) (hmore : front ≠ text) :
      Outcome t flag text (.error ("trailing garbage in " ++ text))

-- A text that starts with a numeral starts with a longest one. The induction is on what follows.
theorem exists_leading {front : Text} {n : Int} (hstarts : front <+: text)
    (hnumeral : Numeral t front n) : ∃ front n, Leading t text front n := by
  by_cases h : ∃ other m, other <+: text ∧ Numeral t other m ∧ front.length < other.length
  · obtain ⟨other, m, hother, hm, hlt⟩ := h
    exact exists_leading hother hm
  · exact ⟨front, n, hstarts, hnumeral, fun hother hm =>
      not_lt.mp fun hlt => h ⟨_, _, hother, hm, hlt⟩⟩
termination_by text.length - front.length
decreasing_by
  have := hother.length_le
  omega

theorem Numeral.concat {c : UInt8} (h : Numeral t front n) (hc : Text.isDigit c) :
    ∃ m, Numeral t (front ++ [c]) m := by
  have hall : ∀ {digits : Text}, (∀ c ∈ digits, Text.isDigit c) →
      ∀ c' ∈ digits ++ [c], Text.isDigit c' := by
    intro digits hdigits c' hmem
    rcases List.mem_append.mp hmem with hfront | hlast
    · exact hdigits c' hfront
    · exact List.mem_singleton.mp hlast ▸ hc
  cases h with
  | plain _ hdigits => exact ⟨_, .plain (List.concat_ne_nil c _) (hall hdigits)⟩
  | minus hsigned _ hdigits =>
    rw [List.cons_append]
    exact ⟨_, .minus hsigned (List.concat_ne_nil c _) (hall hdigits)⟩

theorem Leading.not_isDigit (h : Leading t (front ++ rest) front n) :
    ∀ c, rest.head? = some c → ¬Text.isDigit c := by
  intro c hc hdigit
  obtain ⟨tail, rfl⟩ := List.head?_eq_some_iff.mp hc
  obtain ⟨m, hm⟩ := h.numeral.concat hdigit
  have hle := h.longest ⟨tail, by rw [List.append_assoc, List.singleton_append]⟩ hm
  rw [List.length_append, List.length_singleton] at hle
  omega

theorem scan_of_leading (h : Leading t (front ++ rest) front n) :
    scan t (front ++ rest) = if t.Fits n then .ok (n, rest) else .error .outOfRange := by
  have hrest := h.not_isDigit
  cases h.numeral with
  | plain hne hdigits =>
    have hsign : (t.signed && decide ((front ++ rest).head? = some ('-' : UInt8))) = false := by
      obtain ⟨c, tail, rfl⟩ := List.exists_cons_of_ne_nil hne
      have hc : c ≠ '-' := by
        rintro rfl
        exact absurd (hdigits _ List.mem_cons_self) (by decide)
      simp [hc]
    obtain ⟨htake, hdrop⟩ := Decimal.takeWhile_digits hdigits hrest
    rw [scan_eq hsign rfl rfl, if_neg Bool.false_ne_true, htake, hdrop, if_neg hne]
    rfl
  | @minus hsigned digits hne hdigits =>
    have hsign : (t.signed &&
        decide ((('-' : UInt8) :: (digits ++ rest)).head? = some ('-' : UInt8))) = true := by
      simp [hsigned]
    obtain ⟨htake, hdrop⟩ := Decimal.takeWhile_digits hdigits hrest
    rw [List.cons_append, scan_eq hsign rfl rfl, if_pos rfl, List.tail_cons, htake, hdrop,
      if_neg hne]
    rfl

theorem scan_of_malformed (h : ∀ front n, front <+: text → ¬Numeral t front n) :
    scan t text = .error .malformed := by
  have hdigits : ∀ {body : Text}, ∀ c ∈ body.takeWhile Text.isDigit, Text.isDigit c := fun c hc =>
    List.mem_takeWhile_imp hc
  cases hsign : t.signed && decide (text.head? = some ('-' : UInt8)) with
  | false =>
    rw [scan_eq hsign rfl rfl, if_pos]
    by_contra hne
    exact h _ _ (List.takeWhile_prefix _) (.plain hne hdigits)
  | true =>
    obtain ⟨hsigned, hhead⟩ := Bool.and_eq_true_iff.mp hsign
    obtain ⟨body, rfl⟩ := List.head?_eq_some_iff.mp (of_decide_eq_true hhead)
    rw [scan_eq hsign rfl rfl, if_pos]
    by_contra hne
    exact h _ _ (List.cons_prefix_cons.mpr ⟨rfl, List.takeWhile_prefix _⟩)
      (.minus hsigned hne hdigits)

-- Both kinds of reading look at what was scanned: first whether it may be a flag, if that is asked
-- for, and then at what follows it.
def conclude (flag : Bool) (text : Text) :
    Except IntegerError (Int × Text) → Except IntegerError Int
  | .error e => .error e
  | .ok (n, rest) =>
    if flag ∧ 1 < n then .error .notAFlag
    else if rest = [] then .ok n
    else .error (.trailing text)

theorem read_eq_conclude : read t text false = conclude false text (scan t text) := by
  unfold read
  cases scan t text with
  | error e => rfl
  | ok scanned =>
    obtain ⟨n, rest⟩ := scanned
    cases rest <;> simp [conclude]

theorem fits_of_scan (h : scan t text = .ok (n, rest)) : t.Fits n := by
  cases hsign : t.signed && decide (text.head? = some ('-' : UInt8)) with
  | true => exact ((scan_eq_ok_iff hsign rfl).mp h).2.2.1
  | false => exact ((scan_eq_ok_iff hsign rfl).mp h).2.2.1

theorem readFlag_eq_conclude :
    (readFlag text false).map Bool.toInt = conclude true text (scan .u64 text) := by
  unfold readFlag
  cases hscan : scan .u64 text with
  | error e => rfl
  | ok scanned =>
    obtain ⟨n, rest⟩ := scanned
    have hmin : 0 ≤ n := (fits_of_scan hscan).1
    by_cases hn : 1 < n
    · simp [conclude, hn, Except.map]
    · obtain rfl | rfl : n = 0 ∨ n = 1 := by omega
      all_goals cases rest <;> simp [conclude, Except.map, Bool.toInt]

theorem Outcome.conclude_eq (h : Outcome t flag text result) :
    (conclude flag text (scan t text)).mapError IntegerError.message = result := by
  cases h with
  | @number n hnumeral hfits hflag =>
    have hread := read_eq_ok_iff_scan.mp (read_eq_ok_iff.mpr ⟨hnumeral, hfits⟩)
    have hnot : ¬(flag ∧ 1 < n) := fun h => absurd (hflag h.1) (Int.not_le.mpr h.2)
    rw [hread, conclude, if_neg hnot, if_pos rfl]
    rfl
  | malformed h =>
    rw [scan_of_malformed h]
    rfl
  | outOfRange h hfits =>
    obtain ⟨rest, rfl⟩ := h.starts
    rw [scan_of_leading h, if_neg hfits]
    rfl
  | notAFlag h hfits hflag hn =>
    obtain ⟨rest, rfl⟩ := h.starts
    rw [scan_of_leading h, if_pos hfits, conclude, if_pos ⟨hflag, hn⟩]
    rfl
  | @trailing _ n h hfits hflag hmore =>
    obtain ⟨rest, rfl⟩ := h.starts
    have hrest : rest ≠ [] := by
      rintro rfl
      exact hmore (List.append_nil _).symm
    have hnot : ¬(flag ∧ 1 < n) := fun h => absurd (hflag h.1) (Int.not_le.mpr h.2)
    rw [scan_of_leading h, if_pos hfits, conclude, if_neg hnot, if_neg hrest]
    rfl

theorem exists_outcome (t : IntType) (flag : Bool) (text : Text) :
    ∃ result, Outcome t flag text result := by
  by_cases hany : ∃ front n, front <+: text ∧ Numeral t front n
  case neg => exact ⟨_, .malformed fun front n hstarts h => hany ⟨front, n, hstarts, h⟩⟩
  case pos =>
    obtain ⟨_, _, hstarts, hnumeral⟩ := hany
    obtain ⟨front, n, h⟩ := exists_leading hstarts hnumeral
    by_cases hfits : t.Fits n
    case neg => exact ⟨_, .outOfRange h hfits⟩
    case pos =>
      by_cases hflag : flag ∧ 1 < n
      · exact ⟨_, .notAFlag h hfits hflag.1 hflag.2⟩
      have hflag' : flag → n ≤ 1 := fun hf => Int.not_lt.mp fun hn => hflag ⟨hf, hn⟩
      by_cases hmore : front = text
      · subst hmore
        exact ⟨_, .number h.numeral hfits hflag'⟩
      · exact ⟨_, .trailing h hfits hflag' hmore⟩

theorem conclude_eq_iff :
    (conclude flag text (scan t text)).mapError IntegerError.message = result ↔
      Outcome t flag text result := by
  refine ⟨fun h => ?_, Outcome.conclude_eq⟩
  obtain ⟨result', houtcome⟩ := exists_outcome t flag text
  rwa [← h, houtcome.conclude_eq]

theorem signed_of_fits (h : t.Fits n) (hn : n < 0) : t.signed := by
  obtain ⟨hmin, -⟩ := h
  by_contra hsigned
  rw [IntType.min, if_neg hsigned] at hmin
  omega

theorem numeral_text (h : t.Fits n) : Numeral t (Decimal.text n) n := by
  have hdigits : ∀ c ∈ Decimal.digits n.natAbs, Text.isDigit c := fun c hc =>
    Decimal.isDigit_of_mem_digits hc
  have hvalue := Decimal.value_digits n.natAbs
  rw [Decimal.text_eq]
  by_cases hn : n < 0
  · have h' := Numeral.minus (signed_of_fits h hn) (Decimal.digits_ne_nil n.natAbs) hdigits
    have hneg : -(n.natAbs : Int) = n := by omega
    rw [hvalue, hneg] at h'
    rwa [if_pos hn]
  · have h' := Numeral.plain (t := t) (Decimal.digits_ne_nil n.natAbs) hdigits
    have habs : (n.natAbs : Int) = n := by omega
    rw [hvalue, habs] at h'
    rwa [if_neg hn]

theorem read_emptyOk (t : IntType) (text : Text) :
    read t text true = if text = [] then .ok 0 else read t text false := by
  cases text <;> rfl

theorem readFlag_emptyOk (text : Text) :
    readFlag text true = if text = [] then .ok false else readFlag text false := by
  cases text <;> rfl

-- A number is read where the whole text is a numeral of it and it fits. Every other text is turned
-- down, for the longest numeral that it starts with: there is none, it does not fit, it is no flag
-- where one is asked for, or something follows it. A flag is first of all a 64-bit number. The text
-- of a number is read back by the types that have it.
theorem integers_read :
    (∀ (t : IntType) (text : Text) (result : Except Text Int),
      (read t text false).mapError IntegerError.message = result ↔ Outcome t false text result) ∧
    (∀ (text : Text) (result : Except Text Int),
      ((readFlag text false).map Bool.toInt).mapError IntegerError.message = result ↔
        Outcome .u64 true text result) ∧
    (∀ (t : IntType) (text : Text),
      read t text true = if text = [] then .ok 0 else read t text false) ∧
    (∀ text : Text, readFlag text true = if text = [] then .ok false else readFlag text false) ∧
    ∀ (t : IntType) (n : Int) (emptyOk : Bool),
      read t (Decimal.text n) emptyOk = .ok n ↔ t.Fits n := by
  refine ⟨fun t text result => ?_, fun text result => ?_, read_emptyOk, readFlag_emptyOk,
    fun t n emptyOk => ?_⟩
  · rw [read_eq_conclude]
    exact conclude_eq_iff
  · rw [readFlag_eq_conclude]
    exact conclude_eq_iff
  · have hread : read t (Decimal.text n) emptyOk = read t (Decimal.text n) false := by
      cases emptyOk with
      | false => rfl
      | true => rw [read_emptyOk, if_neg (Decimal.text_ne_nil n)]
    rw [hread, read_eq_ok_iff]
    exact ⟨fun h => h.2, fun h => ⟨numeral_text h, h⟩⟩

-- What does not fit is told before what follows it, and so is what is no flag.
example : read .u8 "256x" false = .error .outOfRange ∧
    readFlag "2x" false = .error .notAFlag ∧
    readFlag "18446744073709551616" false = .error .outOfRange := by decide +kernel

end Foreman.Integer
